import Asm6502.Listing.Row

/-!
# Rows read back

A record is printed in columns: the location in 1 to 4, four bytes in 6 to 17, the mark of a
disabled statement in 18, the line number from 21 on, then the text. Further bytes stand from column
6 on in rows of their own. `Content.read?` looks at these columns only, and finds in the printed rows of a
record all that they are to show (`read_render`).

The fields before the line number have fixed widths and the digits of the number are no blanks, so
that trimming a row takes nothing but blanks from the end of the text (`Record.firstRow_eq`). A line
number that is wider than its field moves the text, and nothing before it.
-/

namespace Asm6502

/-! ### Numerals and blanks -/

namespace Text

/-- The number that hexadecimal digits are worth; none if a character is no such digit. -/
def hexNumber? (cs : List Char) : Option Nat :=
  (cs.mapM digit?).map fun digits => digits.foldl (fun value digit => 16 * value + digit) 0

/-- The digits of the first decimal number in a text. -/
def firstDigits (cs : List Char) : List Char :=
  (cs.dropWhile (!·.isDigit)).takeWhile (·.isDigit)

/-- What follows the first decimal number in a text. -/
def afterNumber (cs : List Char) : List Char :=
  (cs.dropWhile (!·.isDigit)).dropWhile (·.isDigit)

/-- The first decimal number in a text. -/
def firstNumber? (cs : List Char) : Option Nat :=
  match firstDigits cs with
  | [] => none
  | digits => some (Nat.ofDigitChars 10 digits 0)

theorem digit?_hexDigit {n : Nat} (small : n < 16) : digit? (hexDigit n) = some n := by
  have all : ∀ n < 16, digit? (hexDigit n) = some n := by decide
  exact all n small

theorem hexNumber?_hexByte (b : UInt8) : hexNumber? (hexByte b) = some b.toNat := by
  have bound := b.toNat_lt
  have high := digit?_hexDigit (n := b.toNat / 16) (by omega)
  have low := digit?_hexDigit (n := b.toNat % 16) (by omega)
  simp [hexNumber?, hexByte, high, low]
  omega

theorem hexNumber?_hexWord (w : UInt16) : hexNumber? (hexWord w) = some w.toNat := by
  have bound := w.toNat_lt
  have first := digit?_hexDigit (n := w.toNat / 4096) (by omega)
  have second := digit?_hexDigit (n := w.toNat / 256 % 16) (by omega)
  have third := digit?_hexDigit (n := w.toNat / 16 % 16) (by omega)
  have fourth := digit?_hexDigit (n := w.toNat % 16) (by omega)
  simp [hexNumber?, hexWord, first, second, third, fourth]
  omega

theorem isBlank_hexDigit {n : Nat} (small : n < 16) : isBlank (hexDigit n) = false := by
  have all : ∀ n < 16, isBlank (hexDigit n) = false := by decide
  exact all n small

theorem isBlank_of_mem_hexByte {b : UInt8} {c : Char} (mem : c ∈ hexByte b) :
    isBlank c = false := by
  have bound := b.toNat_lt
  simp only [hexByte, List.mem_cons, List.not_mem_nil, or_false] at mem
  rcases mem with rfl | rfl
  · exact isBlank_hexDigit (by omega)
  · exact isBlank_hexDigit (by omega)

theorem isBlank_of_mem_hexWord {w : UInt16} {c : Char} (mem : c ∈ hexWord w) :
    isBlank c = false := by
  have bound := w.toNat_lt
  simp only [hexWord, List.mem_cons, List.not_mem_nil, or_false] at mem
  rcases mem with rfl | rfl | rfl | rfl
  · exact isBlank_hexDigit (by omega)
  · exact isBlank_hexDigit (by omega)
  · exact isBlank_hexDigit (by omega)
  · exact isBlank_hexDigit (by omega)

theorem isBlank_of_isDigit {c : Char} (digit : c.isDigit = true) : isBlank c = false := by
  have bounds : 48 ≤ c.toNat ∧ c.toNat ≤ 57 := by
    simpa [Char.isDigit, UInt32.le_iff_toNat_le] using digit
  simp only [isBlank, Bool.or_eq_false_iff, Bool.and_eq_false_iff, decide_eq_false_iff_not,
    beq_eq_false_iff_ne]
  omega

/-- A blank before a text does not change what is trimmed after it. -/
theorem drop_trimEnd_cons (cs : List Char) : (trimEnd (' ' :: cs)).drop 1 = trimEnd cs := by
  have blank : isBlank ' ' = true := by decide
  simp only [trimEnd, List.reverse_cons, List.dropWhile_append]
  split
  · rename_i empty
    simp [List.isEmpty_iff.mp empty, blank]
  · simp

/-- A number behind blanks is found with what follows it, unless that starts with a digit. -/
theorem firstDigits_toDigits (n width : Nat) {rest : List Char}
    (stop : ∀ c ∈ rest.head?, c.isDigit = false) :
    let cs := (Nat.toDigits 10 n).leftpad width ' ' ++ rest
    firstDigits cs = Nat.toDigits 10 n ∧ afterNumber cs = rest := by
  intro cs
  have digits : ∀ c ∈ Nat.toDigits 10 n, c.isDigit = true :=
    fun c mem => Nat.isDigit_of_mem_toDigits (by decide) (by decide) mem
  have found : cs.dropWhile (!·.isDigit) = Nat.toDigits 10 n ++ rest := by
    obtain ⟨first, more, written⟩ :=
      List.exists_cons_of_ne_nil (Nat.toDigits_ne_nil (n := n) (b := 10))
    have head : first.isDigit = true := digits first (by simp [written])
    have blanks : ∀ c ∈ List.replicate (width - (Nat.toDigits 10 n).length) ' ',
        (!c.isDigit) = true := by
      intro c mem
      rw [List.eq_of_mem_replicate mem]
      decide
    simp only [cs, List.leftpad]
    rw [List.append_assoc, List.dropWhile_append_of_pos blanks, written, List.cons_append,
      List.dropWhile_cons_of_neg (by simp [head])]
  have none : rest.takeWhile (·.isDigit) = [] ∧ rest.dropWhile (·.isDigit) = rest := by
    cases rest with
    | nil => exact ⟨rfl, rfl⟩
    | cons c rest =>
      have other := stop c rfl
      exact ⟨List.takeWhile_cons_of_neg (by simp [other]),
        List.dropWhile_cons_of_neg (by simp [other])⟩
  constructor
  · rw [firstDigits, found, List.takeWhile_append_of_pos digits, none.1, List.append_nil]
  · rw [afterNumber, found, List.dropWhile_append_of_pos digits, none.2]

theorem firstNumber?_toDigits (n width : Nat) {rest : List Char}
    (stop : ∀ c ∈ rest.head?, c.isDigit = false) :
    firstNumber? ((Nat.toDigits 10 n).leftpad width ' ' ++ rest) = some n := by
  obtain ⟨first, more, written⟩ :=
    List.exists_cons_of_ne_nil (Nat.toDigits_ne_nil (n := n) (b := 10))
  rw [firstNumber?, (firstDigits_toDigits n width stop).1]
  simp only [written]
  rw [← written, Nat.ofDigitChars_ten_toDigits]

end Text

namespace Listing

/-! ### Reading columns -/

/-- The characters of a row in columns `first` to `last`; columns count from one. -/
def columns (first last : Nat) (row : List Char) : List Char := (row.take last).drop (first - 1)

/-- The byte that a word of two hexadecimal digits is worth. -/
def byte? (word : List Char) : Option UInt8 :=
  if word.length = 2 then (Text.hexNumber? word).map UInt8.ofNat else none

/-- The bytes among the words of a text between blanks. -/
def bytesIn (cs : List Char) : List UInt8 := (cs.splitOn ' ').filterMap byte?

/-- The value behind an equals sign. -/
def value? : List Char → Option UInt16
  | '=' :: cs => (Text.hexNumber? (cs.take 4)).map UInt16.ofNat
  | _ => none

/-- What the rows of a record show. -/
structure Content where
  /-- The location counter, if it is shown. -/
  location : Option UInt16
  /-- The bytes. -/
  bytes : List UInt8
  /-- The value, which is shown only if there are no bytes. -/
  value : Option UInt16
  /-- The mark of a disabled statement. -/
  suppressed : Bool
  /-- The line number. -/
  line : Nat
  /-- The text of the statement, without blanks at its end. -/
  text : List Char
  deriving DecidableEq, Repr

/-- Read the columns of the first row, and the bytes of the further rows. -/
def Content.read? : (rows : List (List Char)) → Option Content
  | [] => none
  | first :: further =>
    (Text.firstNumber? (first.drop 20)).map fun line =>
      { location := (Text.hexNumber? (columns 1 4 first)).map UInt16.ofNat
        bytes :=
          bytesIn (columns 6 17 first) ++ further.flatMap fun row => bytesIn (row.drop 5)
        value := value? (columns 6 17 first)
        suppressed := columns 18 18 first == ['S']
        line
        text := (Text.afterNumber (first.drop 20)).drop 1 }

/-- What is to be found in the rows of a record. -/
def Record.content (record : Record) : Content :=
  { location := record.location
    bytes := record.bytes
    value := if record.bytes.isEmpty then record.value else none
    suppressed := record.suppressed
    line := record.line
    text := Text.trimEnd record.text.toList }

/-- The fields of a record stand in their columns of its rows. -/
structure Record.LaidOut (record : Record) (first : List Char) (further : List (List Char)) :
    Prop where
  /-- There is a row for every four bytes, and at least one. -/
  count : further.length + 1 = max 1 ((record.bytes.length + 3) / 4)
  /-- The location is shown in four hexadecimal digits, or left blank. -/
  location : columns 1 4 first =
    match record.location with
    | some location => Text.hexWord location
    | none => List.replicate 4 ' '
  /-- The bytes follow one another through the rows. -/
  bytes : bytesIn (columns 6 17 first) ++ further.flatMap (fun row => bytesIn (row.drop 5)) =
    record.bytes
  /-- Without bytes the value is shown in their place, or nothing. -/
  value : record.bytes = [] → columns 6 17 first =
    match record.value with
    | some value => '=' :: Text.hexWord value ++ List.replicate 7 ' '
    | none => List.replicate 12 ' '
  /-- The mark is set for disabled statements only. -/
  mark : columns 18 18 first = ['S'] ↔ record.suppressed = true
  /-- The first number after column 20 is the line number. -/
  line : Text.firstNumber? (first.drop 20) = some record.line

/-! ### Cells of bytes -/

theorem byte?_hexByte (b : UInt8) : byte? (Text.hexByte b) = some b := by
  rw [byte?, if_pos (Text.length_hexByte b), Text.hexNumber?_hexByte, Option.map_some,
    UInt8.ofNat_toNat]

theorem blank_not_mem_hexByte (b : UInt8) : ' ' ∉ Text.hexByte b := by
  intro mem
  exact absurd (Text.isBlank_of_mem_hexByte mem) (by decide)

@[simp] theorem cells_nil : cells [] = [] := rfl

@[simp] theorem cells_cons (b : UInt8) (bytes : List UInt8) :
    cells (b :: bytes) = Text.hexByte b ++ ' ' :: cells bytes := by
  simp [cells]

theorem cells_concat (bytes : List UInt8) (b : UInt8) :
    cells (bytes ++ [b]) = cells bytes ++ Text.hexByte b ++ [' '] := by
  simp [cells]

theorem length_cells (bytes : List UInt8) : (cells bytes).length = 3 * bytes.length := by
  induction bytes with
  | nil => rfl
  | cons b bytes ih =>
    simp [ih]
    omega

theorem bytesIn_cons_blank (rest : List Char) : bytesIn (' ' :: rest) = bytesIn rest := by
  simp [bytesIn, List.splitOn_cons_eq_if_modifyHead, byte?]

/-- Cells are read as their bytes, whatever follows them. -/
theorem bytesIn_cells_append (bytes : List UInt8) (rest : List Char) :
    bytesIn (cells bytes ++ rest) = bytes ++ bytesIn rest := by
  induction bytes with
  | nil => rfl
  | cons b bytes ih =>
    rw [cells_cons, List.append_assoc, List.cons_append, bytesIn,
      List.splitOn_append_cons_self_of_not_mem (blank_not_mem_hexByte b),
      List.filterMap_cons_some (byte?_hexByte b)]
    exact congrArg (b :: ·) ih

theorem bytesIn_replicate (n : Nat) : bytesIn (List.replicate n ' ') = [] := by
  induction n with
  | zero => rfl
  | succ n ih => rw [List.replicate_succ, bytesIn_cons_blank, ih]

theorem bytesIn_hexByte (b : UInt8) : bytesIn (Text.hexByte b) = [b] := by
  rw [bytesIn, List.splitOn_eq_singleton (blank_not_mem_hexByte b),
    List.filterMap_cons_some (byte?_hexByte b), List.filterMap_nil]

theorem unbroken_cells (bytes : List UInt8) : '\n' ∉ cells bytes := by
  intro mem
  obtain ⟨b, -, inside⟩ := List.mem_flatMap.mp mem
  rcases List.mem_append.mp inside with digit | blank
  · exact absurd (Text.isBlank_of_mem_hexByte digit) (by decide)
  · simp at blank

/-! ### Groups of four -/

theorem length_fours (bytes : List UInt8) : (fours bytes).length = (bytes.length + 3) / 4 := by
  fun_induction fours bytes with
  | case1 => rfl
  | case2 a b c d rest ih =>
    simp only [List.length_cons, ih]
    omega
  | case3 short present few =>
    -- fewer than four bytes, and not none
    rcases short with _ | ⟨a, _ | ⟨b, _ | ⟨c, _ | ⟨d, rest⟩⟩⟩⟩
    · exact absurd rfl present
    · simp
    · simp
    · simp
    · exact absurd rfl (few a b c d rest)

theorem flatten_fours (bytes : List UInt8) : (fours bytes).flatten = bytes := by
  fun_induction fours bytes with
  | case1 => rfl
  | case2 a b c d rest ih => simp [ih]
  | case3 short present few => simp

theorem ne_nil_of_mem_fours {bytes group : List UInt8} (mem : group ∈ fours bytes) :
    group ≠ [] := by
  fun_induction fours bytes with
  | case1 => cases mem
  | case2 a b c d rest ih =>
    rcases List.mem_cons.mp mem with rfl | mem
    · exact List.cons_ne_nil _ _
    · exact ih mem
  | case3 short present few =>
    obtain rfl := List.mem_singleton.mp mem
    exact present

namespace Record

/-- A further row shows its bytes from column 6 on. -/
theorem bytesIn_furtherRow {group : List UInt8} (present : group ≠ []) :
    bytesIn ((furtherRow group).drop 5) = group := by
  rcases List.eq_nil_or_concat group with rfl | ⟨init, last, rfl⟩
  · exact absurd rfl present
  · rw [List.concat_eq_append]
    have row : furtherRow (init ++ [last]) =
        List.replicate 5 ' ' ++ (cells init ++ Text.hexByte last) := by
      have solid : ∀ c ∈ (List.replicate 5 ' ' ++ (cells init ++ Text.hexByte last)).getLast?,
          Text.isBlank c = false := by
        intro c mem
        have inside : c ∈ Text.hexByte last := by
          rw [List.getLast?_append, List.getLast?_append] at mem
          exact List.mem_of_getLast? (by simpa [Text.hexByte] using mem)
        exact Text.isBlank_of_mem_hexByte inside
      rw [furtherRow, cells_concat, ← List.append_assoc, Text.trimEnd_append solid]
      simp [Text.trimEnd, Text.isBlank]
    rw [row, List.drop_left' (List.length_replicate ..), bytesIn_cells_append, bytesIn_hexByte]

theorem unbroken_furtherRow (group : List UInt8) : '\n' ∉ furtherRow group := by
  intro mem
  have inside := (Text.trimEnd_prefix _).subset mem
  simp only [List.mem_append, List.mem_replicate] at inside
  rcases inside with blank | cell
  · exact absurd blank.2 (by decide)
  · exact unbroken_cells group cell

/-! ### The first row -/

section FirstRow

variable (record : Record)

theorem length_locationField : (record.locationField.rightpad 5 ' ').length = 5 := by
  unfold locationField
  cases record.location <;> rfl

theorem length_codeField : (record.codeField.rightpad 12 ' ').length = 12 := by
  have few : record.codeField.length ≤ 12 := by
    unfold codeField
    split
    · simp
    · rw [length_cells, List.length_take]
      omega
  rw [List.rightpad, List.length_append, List.length_replicate]
  omega

theorem length_markField : (record.markField.rightpad 3 ' ').length = 3 := by
  unfold markField
  cases record.suppressed <;> rfl

/-- The first row is its fields one after another, with blanks trimmed after the line number
only. -/
theorem firstRow_eq :
    record.firstRow =
      record.locationField.rightpad 5 ' ' ++ (record.codeField.rightpad 12 ' ' ++
        (record.markField.rightpad 3 ' ' ++ ((Nat.toDigits 10 record.line).leftpad 5 ' ' ++
          Text.trimEnd (' ' :: record.text.toList)))) := by
  have solid : ∀ c ∈ (record.locationField.rightpad 5 ' ' ++ record.codeField.rightpad 12 ' ' ++
      record.markField.rightpad 3 ' ' ++ (Nat.toDigits 10 record.line).leftpad 5 ' ').getLast?,
      Text.isBlank c = false := by
    intro c mem
    have last : c ∈ (Nat.toDigits 10 record.line).getLast? := by
      rw [List.leftpad, List.getLast?_append, List.getLast?_append,
        List.getLast?_eq_some_getLast Nat.toDigits_ne_nil] at mem
      rwa [List.getLast?_eq_some_getLast Nat.toDigits_ne_nil]
    apply Text.isBlank_of_isDigit
    exact Nat.isDigit_of_mem_toDigits (by decide) (by decide) (List.mem_of_getLast? last)
  rw [firstRow, Text.trimEnd_append solid]
  simp only [List.append_assoc]

/-- The fields of the first row are found in their columns. -/
theorem columns_firstRow :
    columns 1 4 record.firstRow = (record.locationField.rightpad 5 ' ').take 4 ∧
      columns 6 17 record.firstRow = record.codeField.rightpad 12 ' ' ∧
      columns 18 18 record.firstRow = (record.markField.rightpad 3 ' ').take 1 ∧
      record.firstRow.drop 20 = (Nat.toDigits 10 record.line).leftpad 5 ' ' ++
        Text.trimEnd (' ' :: record.text.toList) := by
  have location := record.length_locationField
  have code := record.length_codeField
  have mark := record.length_markField
  rw [firstRow_eq]
  generalize record.locationField.rightpad 5 ' ' = a at location ⊢
  generalize record.codeField.rightpad 12 ' ' = b at code ⊢
  generalize record.markField.rightpad 3 ' ' = c at mark ⊢
  generalize (Nat.toDigits 10 record.line).leftpad 5 ' ' ++ _ = d
  refine ⟨?_, ?_, ?_, ?_⟩
  · simp [columns, List.take_append, location]
  · simp [columns, List.take_append, location, code]
  · simp [columns, List.take_append, List.drop_append, location, code, mark]
  · simp [List.drop_append, List.drop_eq_nil_of_le, location, code, mark]

theorem take_locationField :
    (record.locationField.rightpad 5 ' ').take 4 =
      match record.location with
      | some location => Text.hexWord location
      | none => List.replicate 4 ' ' := by
  unfold locationField
  cases record.location <;> rfl

theorem take_markField :
    (record.markField.rightpad 3 ' ').take 1 = [if record.suppressed then 'S' else ' '] := by
  unfold markField
  cases record.suppressed <;> rfl

theorem codeField_of_nil (empty : record.bytes = []) :
    record.codeField.rightpad 12 ' ' =
      match record.value with
      | some value => '=' :: Text.hexWord value ++ List.replicate 7 ' '
      | none => List.replicate 12 ' ' := by
  unfold codeField
  rw [empty]
  cases record.value <;> rfl

theorem codeField_of_ne_nil (present : record.bytes ≠ []) :
    record.codeField = cells (record.bytes.take 4) := by
  unfold codeField
  split
  · contradiction
  · rfl

/-- The first row shows the first four bytes. -/
theorem bytesIn_codeField :
    bytesIn (record.codeField.rightpad 12 ' ') = record.bytes.take 4 := by
  by_cases empty : record.bytes = []
  · rw [codeField_of_nil record empty, empty]
    cases record.value with
    | none => exact bytesIn_replicate 12
    | some value =>
      -- the equals sign and the digits are one word, too long for a byte
      have word : ' ' ∉ '=' :: Text.hexWord value := by
        intro mem
        rcases List.mem_cons.mp mem with equals | mem
        · exact absurd equals (by decide)
        · exact absurd (Text.isBlank_of_mem_hexWord mem) (by decide)
      show bytesIn (('=' :: Text.hexWord value) ++ ' ' :: List.replicate 6 ' ') = []
      rw [bytesIn, List.splitOn_append_cons_self_of_not_mem word]
      exact bytesIn_replicate 6
  · rw [codeField_of_ne_nil record empty, List.rightpad, bytesIn_cells_append, bytesIn_replicate,
      List.append_nil]

/-- The value is shown only if there are no bytes. -/
theorem value?_codeField :
    value? (record.codeField.rightpad 12 ' ') =
      if record.bytes.isEmpty then record.value else none := by
  by_cases empty : record.bytes = []
  · rw [codeField_of_nil record empty, empty]
    cases record.value with
    | none => rfl
    | some value =>
      show (Text.hexNumber? (Text.hexWord value)).map UInt16.ofNat = some value
      rw [Text.hexNumber?_hexWord, Option.map_some, UInt16.ofNat_toNat]
  · obtain ⟨b, bytes, written⟩ := List.exists_cons_of_ne_nil empty
    have bound := b.toNat_lt
    have digits : ∀ n < 16, Text.hexDigit n ≠ '=' := by decide
    have other := digits (b.toNat / 16) (by omega)
    rw [codeField_of_ne_nil record empty, written, List.take_succ_cons, cells_cons, List.rightpad,
      Text.hexByte, List.cons_append, List.cons_append, value?]
    · rfl
    · intro cs same
      exact other (List.cons.inj same).1

theorem unbroken_codeField : '\n' ∉ record.codeField := by
  unfold codeField
  split
  · intro mem
    rcases List.mem_cons.mp mem with equals | mem
    · exact absurd equals (by decide)
    · exact absurd (Text.isBlank_of_mem_hexWord mem) (by decide)
  · exact unbroken_cells _

theorem unbroken_locationField : '\n' ∉ record.locationField := by
  unfold locationField
  split
  · intro mem
    rcases List.mem_append.mp mem with mem | blank
    · exact absurd (Text.isBlank_of_mem_hexWord mem) (by decide)
    · simp at blank
  · exact List.not_mem_nil

theorem unbroken_markField : '\n' ∉ record.markField := by
  unfold markField
  cases record.suppressed <;> decide

theorem unbroken_firstRow (unbroken : '\n' ∉ record.text.toList) : '\n' ∉ record.firstRow := by
  have number : '\n' ∉ Nat.toDigits 10 record.line := by
    intro mem
    exact absurd (Nat.isDigit_of_mem_toDigits (by decide) (by decide) mem) (by decide)
  intro mem
  have inside := (Text.trimEnd_prefix _).subset mem
  simp [List.rightpad, List.leftpad, unbroken, number, record.unbroken_locationField,
    record.unbroken_codeField, record.unbroken_markField] at inside

/-- The line number and the text are found behind the fields of the first row. -/
theorem number_firstRow :
    Text.firstNumber? (record.firstRow.drop 20) = some record.line ∧
      (Text.afterNumber (record.firstRow.drop 20)).drop 1 = Text.trimEnd record.text.toList := by
  have stop : ∀ c ∈ (Text.trimEnd (' ' :: record.text.toList)).head?, c.isDigit = false := by
    intro c mem
    -- what is left of the text starts with the blank before it
    obtain ⟨blanks, whole⟩ := Text.trimEnd_prefix (' ' :: record.text.toList)
    obtain ⟨rest, left⟩ := List.head?_eq_some_iff.mp mem
    rw [left, List.cons_append] at whole
    rw [(List.cons.inj whole).1]
    decide
  rw [record.columns_firstRow.2.2.2]
  constructor
  · exact Text.firstNumber?_toDigits record.line 5 stop
  · rw [(Text.firstDigits_toDigits record.line 5 stop).2, Text.drop_trimEnd_cons]

end FirstRow

/-! ### All rows -/

theorem splitOn_render {record : Record} (unbroken : '\n' ∉ record.text.toList) :
    record.render.toList.splitOn '\n' =
      record.firstRow :: (fours (record.bytes.drop 4)).map furtherRow := by
  rw [render, String.toList_ofList, rows]
  refine List.splitOn_intercalate '\n' ?_ (List.cons_ne_nil _ _)
  intro row mem
  rcases List.mem_cons.mp mem with rfl | mem
  · exact record.unbroken_firstRow unbroken
  · obtain ⟨group, -, rfl⟩ := List.mem_map.mp mem
    exact unbroken_furtherRow group

theorem flatMap_furtherRow (bytes : List UInt8) :
    ((fours bytes).map furtherRow).flatMap (fun row => bytesIn (row.drop 5)) = bytes := by
  have rows : ∀ group ∈ fours bytes, bytesIn ((furtherRow group).drop 5) = group :=
    fun group mem => bytesIn_furtherRow (ne_nil_of_mem_fours mem)
  rw [List.flatMap_map, List.flatMap_def, List.map_congr_left rows, List.map_id',
    flatten_fours]

theorem laidOut_rows (record : Record) :
    record.LaidOut record.firstRow ((fours (record.bytes.drop 4)).map furtherRow) := by
  obtain ⟨location, code, mark, -⟩ := record.columns_firstRow
  constructor
  case count =>
    rw [List.length_map, length_fours, List.length_drop]
    omega
  case location => rw [location, record.take_locationField]
  case bytes =>
    rw [code, record.bytesIn_codeField, flatMap_furtherRow, List.take_append_drop]
  case value =>
    intro empty
    rw [code, record.codeField_of_nil empty]
  case mark =>
    rw [mark, record.take_markField]
    cases record.suppressed <;> decide
  case line => exact record.number_firstRow.1

end Record

/-- **Listing rows can be read back.** The printed form of a record whose text stands on one line
has a row for every four bytes, and at least one. The fields of the record stand in their columns of
these rows, and what is read from the columns is the location, the bytes, the value if there are no
bytes, the mark, the line number however large, and the text without blanks at its end; so records
that are printed alike have all of this in common. -/
theorem read_render (record : Record) (unbroken : '\n' ∉ record.text.toList) :
    ∃ first further, record.render.toList.splitOn '\n' = first :: further ∧
      record.LaidOut first further ∧
      Content.read? (record.render.toList.splitOn '\n') = some record.content := by
  have rows := record.laidOut_rows
  obtain ⟨location, code, mark, -⟩ := record.columns_firstRow
  obtain ⟨line, text⟩ := record.number_firstRow
  refine ⟨_, _, record.splitOn_render unbroken, rows, ?_⟩
  have place : (Text.hexNumber? (columns 1 4 record.firstRow)).map UInt16.ofNat =
      record.location := by
    rw [rows.location]
    cases record.location with
    | none => rfl
    | some location => simp [Text.hexNumber?_hexWord]
  have marked : (columns 18 18 record.firstRow == ['S']) = record.suppressed := by
    rw [Bool.eq_iff_iff, beq_iff_eq]
    exact rows.mark
  rw [Record.splitOn_render unbroken, Content.read?, line, Option.map_some, rows.bytes, place,
    marked, code, record.value?_codeField, text]
  rfl

/-- A record with nine bytes in three rows, in a line whose number is wider than its field, and with
a text that starts with a number and ends in blanks. -/
theorem read_render_wideNumber :
    let record : Record :=
      { location := some 0x3000, bytes := [1, 2, 3, 4, 5, 6, 7, 8, 0xFF], suppressed := true
        line := 4294967295, text := "12 HEX 01  " }
    '\n' ∉ record.text.toList ∧
      record.render = "3000 01 02 03 04 S  4294967295 12 HEX 01\n     05 06 07 08\n     FF" ∧
      Content.read? (record.render.toList.splitOn '\n') =
        some ⟨some 0x3000, [1, 2, 3, 4, 5, 6, 7, 8, 0xFF], none, true, 4294967295,
          "12 HEX 01".toList⟩ := by
  intro record
  have unbroken : '\n' ∉ record.text.toList := by decide
  obtain ⟨first, further, -, -, reads⟩ := read_render record unbroken
  refine ⟨unbroken, by decide +kernel, ?_⟩
  rw [reads]
  decide +kernel

end Listing

end Asm6502
