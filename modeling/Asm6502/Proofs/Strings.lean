import Asm6502.Proofs.Texts
import Asm6502.Proofs.TopBit

/-!
# Strings that show where they end

A counted string has its length before it, and the last byte of a marked string has its top bit set.
So the bytes of any number of strings, one after another, can be taken apart again: `readCounted?`
goes by the length bytes, `readMarked?` by the top bits, and both give back the texts of a program
that is made of such strings (`strings_selfDelimiting`). A length is written modulo 256; a text that
is longer than 255 bytes is put out all the same, and reported.
-/

namespace Asm6502

/-! ### Reading strings -/

/-- The text of bytes whose top bits do not count. -/
def lowText (bytes : List UInt8) : String :=
  String.ofList ((bytes.map (· &&& 0x7F)).map fun b => Char.ofNat b.toNat)

/-- The texts in bytes that hold a length and as many bytes, again and again; none if bytes are
missing at the end. -/
def readCounted? : List UInt8 → Option (List String)
  | [] => some []
  | length :: bytes =>
    if length.toNat ≤ bytes.length then
      (readCounted? (bytes.drop length.toNat)).map (lowText (bytes.take length.toNat) :: ·)
    else none
termination_by bytes => bytes.length
decreasing_by simp only [List.length_cons, List.length_drop]; omega

/-- The texts in bytes that are cut after each byte with its top bit set, `front` being the start of
the first text; none if there is no such byte at the end. -/
def readMarked? (front : List UInt8) : List UInt8 → Option (List String)
  | [] => if front.isEmpty then some [] else none
  | b :: bytes =>
    if 0x80 ≤ b then (readMarked? [] bytes).map (lowText (front ++ [b]) :: ·)
    else readMarked? (front ++ [b]) bytes

/-! ### Printable texts -/

namespace Text

/-- The text has printable characters of ASCII only, and no double quote among them. -/
def Printable (text : String) : Prop :=
  ∀ c ∈ text.toList, ' ' ≤ c ∧ c ≤ '~' ∧ c ≠ doubleQuote

instance (text : String) : Decidable (Printable text) := List.decidableBAll _ _

theorem Printable.quotable {text : String} (printable : Printable text) : Quotable text where
  free mem := (printable _ mem).2.2 rfl
  unbroken mem := absurd (printable _ mem).1 (by decide)

end Text

/-- A text has as many bytes as it takes in UTF-8. -/
theorem length_textBytes (text : String) : (textBytes text).length = text.utf8ByteSize := by
  obtain ⟨cs, rfl⟩ : ∃ cs, text = String.ofList cs := ⟨text.toList, String.ofList_toList.symm⟩
  induction cs with
  | nil => rfl
  | cons c cs ih =>
    rw [← List.singleton_append, String.ofList_append, String.utf8ByteSize_append, ← ih]
    simp [textBytes]

namespace Text.Printable

variable {text : String} (printable : Printable text)

include printable

theorem code_lt : ∀ c ∈ text.toList, c.val.toNat < 128 := by
  intro c mem
  have bound : c.val.toNat ≤ 126 := (printable c mem).2.1
  omega

/-- The bytes of a printable text are the codes of its characters. -/
theorem textBytes_eq : textBytes text = text.toList.map (·.val.toUInt8) := by
  have single : ∀ c ∈ text.toList, String.utf8EncodeChar c = [c.val.toUInt8] := by
    intro c mem
    have small := printable.code_lt c mem
    apply String.utf8EncodeChar_eq_singleton
    rw [Char.utf8Size_eq_one_iff, UInt32.le_iff_toNat_le]
    exact Nat.le_of_lt_succ small
  rw [textBytes, List.flatMap_congr single, List.map_eq_flatMap]

theorem length_eq : (textBytes text).length = text.length := by
  rw [printable.textBytes_eq, List.length_map, String.length_toList]

/-- The low bits of the bytes of a printable text are the text. -/
theorem lowText_textBytes : lowText (textBytes text) = text := by
  have same : ∀ c ∈ text.toList, Char.ofNat (c.val.toUInt8 &&& 0x7F).toNat = c := by
    intro c mem
    have small := printable.code_lt c mem
    have low : (c.val.toUInt8 &&& 0x7F).toNat = c.val.toNat := by
      rw [UInt8.toNat_and, UInt32.toNat_toUInt8]
      show c.val.toNat % 256 &&& (2 ^ 7 - 1) = c.val.toNat
      rw [Nat.and_two_pow_sub_one_eq_mod]
      omega
    rw [low]
    exact Char.ofNat_toNat c
  have whole : ((text.toList.map (·.val.toUInt8)).map (· &&& 0x7F)).map
      (fun b => Char.ofNat b.toNat) = text.toList := by
    rw [List.map_map, List.map_map]
    exact (List.map_congr_left same).trans (List.map_id' _)
  rw [lowText, printable.textBytes_eq, whole, String.ofList_toList]

end Text.Printable

/-! ### One string and what follows it -/

/-- Only the low bits of bytes count for their text. -/
theorem lowText_congr {bytes bytes' : List UInt8}
    (same : bytes.map (· &&& 0x7F) = bytes'.map (· &&& 0x7F)) :
    lowText bytes = lowText bytes' := by
  rw [lowText, lowText, same]

theorem readCounted?_bytes {text : String} (printable : Text.Printable text)
    (short : text.length ≤ 255) (msb : Bool) (rest : List UInt8) :
    readCounted? (StringStyle.counted.bytes msb text ++ rest) =
      (readCounted? rest).map (text :: ·) := by
  let plain := (textBytes text).map (withTopBit msb)
  have length : plain.length = text.length := by rw [List.length_map, printable.length_eq]
  have counted : (UInt8.ofNat plain.length).toNat = plain.length := by
    rw [UInt8.toNat_ofNat', length]
    omega
  have same : lowText plain = text := by
    rw [lowText_congr (map_low_withTopBit msb _), printable.lowText_textBytes]
  show readCounted? (UInt8.ofNat plain.length :: (plain ++ rest)) = _
  rw [readCounted?, counted, if_pos (by simp), List.drop_left, List.take_left, same]

/-- Counted strings are taken apart by their lengths. -/
theorem readCounted?_flatMap (msb : Bool) {texts : List String}
    (each : ∀ text ∈ texts, Text.Printable text ∧ text.length ≤ 255) :
    readCounted? (texts.flatMap (StringStyle.counted.bytes msb)) = some texts := by
  induction texts with
  | nil => rw [List.flatMap_nil, readCounted?]
  | cons text texts ih =>
    rw [List.forall_mem_cons] at each
    rw [List.flatMap_cons, readCounted?_bytes each.1.1 each.1.2, ih each.2]
    rfl

theorem markLast_cons_cons (b c : UInt8) (bytes : List UInt8) :
    markLast (b :: c :: bytes) = b :: markLast (c :: bytes) := by
  simp [markLast]

/-- Bytes without top bits are read up to the one that is marked. -/
theorem readMarked?_markLast {bytes : List UInt8} (present : bytes ≠ [])
    (low : ∀ b ∈ bytes, ¬ 0x80 ≤ b) (front rest : List UInt8) :
    readMarked? front (markLast bytes ++ rest) =
      (readMarked? [] rest).map (lowText (front ++ markLast bytes) :: ·) := by
  induction bytes generalizing front with
  | nil => exact absurd rfl present
  | cons b bytes ih =>
    cases bytes with
    | nil =>
      have top : 0x80 ≤ b ||| 0x80 := by
        rw [UInt8.le_iff_toNat_le, UInt8.toNat_or]
        exact Nat.right_le_or
      show readMarked? front ((b ||| 0x80) :: rest) = _
      rw [readMarked?, if_pos top]
      rfl
    | cons c bytes =>
      rw [List.forall_mem_cons] at low
      rw [markLast_cons_cons, List.cons_append, readMarked?, if_neg low.1,
        ih (List.cons_ne_nil c bytes) low.2, List.append_assoc]
      rfl

theorem readMarked?_bytes {text : String} (printable : Text.Printable text) (present : text ≠ "")
    (rest : List UInt8) :
    readMarked? [] (StringStyle.marked.bytes false text ++ rest) =
      (readMarked? [] rest).map (text :: ·) := by
  let plain := (textBytes text).map (withTopBit false)
  have filled : plain ≠ [] := by
    simpa [plain, printable.textBytes_eq] using present
  have low : ∀ b ∈ plain, ¬ 0x80 ≤ b := by
    intro b mem
    obtain ⟨a, -, rfl⟩ := List.mem_map.mp mem
    have bound : a.toNat &&& 127 ≤ 127 := Nat.and_le_right
    rw [UInt8.le_iff_toNat_le, withTopBit, if_neg Bool.false_ne_true, UInt8.toNat_and]
    exact Nat.not_le.mpr (Nat.lt_succ_of_le bound)
  have same : lowText (markLast plain) = text := by
    rw [lowText_congr (map_low_markLast plain), lowText_congr (map_low_withTopBit false _),
      printable.lowText_textBytes]
  show readMarked? [] (markLast plain ++ rest) = _
  rw [readMarked?_markLast filled low, List.nil_append, same]

/-- Marked strings are taken apart by the top bits. -/
theorem readMarked?_flatMap {texts : List String}
    (each : ∀ text ∈ texts, Text.Printable text ∧ text ≠ "") :
    readMarked? [] (texts.flatMap (StringStyle.marked.bytes false)) = some texts := by
  induction texts with
  | nil => rfl
  | cons text texts ih =>
    rw [List.forall_mem_cons] at each
    rw [List.flatMap_cons, readMarked?_bytes each.1.1 each.1.2, ih each.2]
    rfl

/-! ### Programs of strings -/

/-- A text with one line for each string assembles to the bytes of the strings, in order. -/
theorem assemble_ofStrings {style : StringStyle} {keyword : String} {texts : List String}
    (isKeyword : Scan.IsKeyword keyword (.string style))
    (quotable : ∀ text ∈ texts, Text.Quotable text) (options : Options) (setting : Setting)
    (indent : Nat) :
    let artifact := assemble options setting (Source.ofStrings indent keyword texts)
    artifact.bytes = texts.flatMap (style.bytes options.msb) ∧
      ((∀ text ∈ texts, style.problems text = []) → artifact.diagnostics = []) := by
  intro artifact
  let statements := ((texts.map Text.quoted).zipIdx 1).map fun item =>
    Statement.ofOperand (.string style) indent keyword item.1 item.2
  have run : artifact = Assembly.run options statements :=
    (directiveLines_ofStrings isKeyword quotable indent).assemble_eq (by simp) options setting
  have isText : ∀ statement ∈ statements, statement.isText = true ∧ statement.label = none := by
    intro statement mem
    obtain ⟨item, -, rfl⟩ := List.mem_map.mp mem
    exact ⟨rfl, rfl⟩
  obtain ⟨bytes, diagnostics⟩ := Assembly.run_texts options isText
  rw [run, bytes, diagnostics]
  constructor
  · have pairs : statements.flatMap (·.spelledBytes options.msb) =
        ((texts.zipIdx 1).map (·.1)).flatMap (style.bytes options.msb) := by
      rw [List.flatMap_map, List.flatMap_map, List.zipIdx_map, List.flatMap_map]
      apply List.flatMap_congr
      intro item mem
      exact (Statement.spells_ofOperand
        (quotable item.1 (List.fst_mem_of_mem_zipIdx mem)) item.2).1 options.msb
    rw [pairs, List.zipIdx_map_fst]
  · intro clean
    apply List.flatMap_eq_nil_iff.mpr
    intro statement mem
    obtain ⟨item, listed, rfl⟩ := List.mem_map.mp mem
    obtain ⟨text, mem, same⟩ := List.mem_map.mp (List.fst_mem_of_mem_zipIdx listed)
    rw [← same, (Statement.spells_ofOperand (quotable text mem) item.2).2, clean text mem,
      List.map_nil]

namespace Assembly

variable {options : Options} {statements : List Statement} {i : Nat} {statement : Statement}

/-- A counted string that is too long is put out in full, with its length modulo 256 before it, and
reported. -/
theorem visit_of_tooLong {text : String} (found : statements[i]? = some statement)
    (counted : statement.directive? = some (.string .counted))
    (string : statement.string? = some text) (long : 255 < text.utf8ByteSize)
    (enabled : (before options statements .two i).conditions.enabled = true) :
    let state := before options statements .two i
    (state.inDsect = false →
        StandsAt (run options statements).bytes (outputBefore options statements i)
          (UInt8.ofNat (text.utf8ByteSize % 256) ::
            (textBytes text).map (withTopBit state.msb))) ∧
      ⟨.stringTooLong text.utf8ByteSize, some statement.position⟩ ∈
        (run options statements).diagnostics := by
  intro state
  have isText : statement.isText = true := by simp [Statement.isText, counted]
  have problems : statement.spellingProblems = [.stringTooLong text.utf8ByteSize] := by
    simp [Statement.spellingProblems, counted, string, StringStyle.problems, long]
  have spelled : statement.spelledBytes state.msb =
      UInt8.ofNat (text.utf8ByteSize % 256) :: (textBytes text).map (withTopBit state.msb) := by
    have wraps : UInt8.ofNat text.utf8ByteSize = UInt8.ofNat (text.utf8ByteSize % 256) := by
      apply UInt8.toNat_inj.mp
      simp
    simp [Statement.spelledBytes, counted, string, StringStyle.bytes, length_textBytes, wraps]
  obtain ⟨-, bytes, diagnostics⟩ := @step_text options .two state statement
    (decided options statements .two i) isText enabled
  constructor
  · intro outside
    rw [← spelled]
    have visited : (visit options statements .two i statement).2.bytes =
        statement.spelledBytes state.msb := by
      rw [visit, bytes, outside]
      rfl
    exact visited ▸ standsAt_visit found
  · apply mem_diagnostics_of_visit .two found
    rw [visit, diagnostics, problems]
    simp [Assembly.found]

end Assembly

/-- **Strings show where they end.** For printable texts, the bytes of counted strings of at most
255 characters are taken apart again by the lengths, with the top bit on or off, and the bytes of
marked strings that are not empty are taken apart by the top bits, if these are off otherwise. A
counted string that is too long for its length byte is put out in full and always reported. -/
theorem strings_selfDelimiting (options : Options) (setting : Setting) (indent : Nat) :
    (∀ texts : List String, (∀ text ∈ texts, Text.Printable text ∧ text.length ≤ 255) →
        let artifact := assemble options setting (Source.ofStrings indent "STR" texts)
        readCounted? artifact.bytes = some texts ∧ artifact.diagnostics = []) ∧
      (∀ texts : List String, options.msb = false →
        (∀ text ∈ texts, Text.Printable text ∧ text ≠ "") →
        let artifact := assemble options setting (Source.ofStrings indent "DCI" texts)
        readMarked? [] artifact.bytes = some texts ∧ artifact.diagnostics = []) ∧
      ∀ (statements : List Statement) (i : Nat) (statement : Statement) (text : String),
        statements[i]? = some statement →
        statement.directive? = some (.string .counted) → statement.string? = some text →
        255 < text.utf8ByteSize →
        let state := Assembly.before options statements .two i
        state.conditions.enabled = true →
        (state.inDsect = false →
            StandsAt (Assembly.run options statements).bytes
              (Assembly.outputBefore options statements i)
              (UInt8.ofNat (text.utf8ByteSize % 256) ::
                (textBytes text).map (withTopBit state.msb))) ∧
          ⟨.stringTooLong text.utf8ByteSize, some statement.position⟩ ∈
            (Assembly.run options statements).diagnostics := by
  refine ⟨fun texts each => ?_, fun texts off each => ?_, ?_⟩
  · intro artifact
    have isKeyword : Scan.IsKeyword "STR" (.string .counted) :=
      ⟨by decide +kernel, by decide +kernel⟩
    obtain ⟨bytes, clean⟩ := assemble_ofStrings isKeyword
      (fun text mem => (each text mem).1.quotable) options setting indent
    constructor
    · rw [bytes, readCounted?_flatMap options.msb each]
    · apply clean
      intro text mem
      obtain ⟨printable, short⟩ := each text mem
      rw [← printable.length_eq, length_textBytes] at short
      exact if_neg fun long => Nat.not_lt.mpr short long.2
  · intro artifact
    have isKeyword : Scan.IsKeyword "DCI" (.string .marked) :=
      ⟨by decide +kernel, by decide +kernel⟩
    obtain ⟨bytes, clean⟩ := assemble_ofStrings isKeyword
      (fun text mem => (each text mem).1.quotable) options setting indent
    constructor
    · rw [bytes, off, readMarked?_flatMap each]
    · apply clean
      intro text mem
      exact if_neg fun long => by cases long.1
  · intro statements i statement text found counted string long state enabled
    exact Assembly.visit_of_tooLong found counted string long enabled

/-- Texts with blanks at both ends, an apostrophe and a semicolon, in column one; and a text of 300
letters, which are put out after the length 44. -/
theorem strings_selfDelimiting_blanks :
    let texts := ["  it's; ", " ", "A"]
    let long := Statement.ofOperand (.string .counted) 1 "STR" (Text.quoted (Text.letters 300)) 1
    (∀ text ∈ "" :: texts, Text.Printable text ∧ text.length ≤ 255) ∧
      (∀ text ∈ texts, Text.Printable text ∧ text ≠ "") ∧
      readCounted? (assemble { msb := true } {} (Source.ofStrings 0 "STR" ("" :: texts))).bytes =
        some ("" :: texts) ∧
      readMarked? [] (assemble {} {} (Source.ofStrings 0 "DCI" texts)).bytes = some texts ∧
      long.string? = some (Text.letters 300) ∧ 255 < (Text.letters 300).utf8ByteSize ∧
      ⟨.stringTooLong (Text.letters 300).utf8ByteSize, some ⟨1, 2⟩⟩ ∈
        (Assembly.run {} [long]).diagnostics ∧
      StandsAt (Assembly.run {} [long]).bytes (Assembly.outputBefore {} [long] 0)
        (44 :: (textBytes (Text.letters 300)).map (withTopBit false)) := by
  intro texts long
  have short : ∀ text ∈ "" :: texts, Text.Printable text ∧ text.length ≤ 255 := by decide
  have filled : ∀ text ∈ texts, Text.Printable text ∧ text ≠ "" := by decide
  have size : (Text.letters 300).utf8ByteSize = 300 := by
    rw [← length_textBytes, length_textBytes_letters]
  have string : long.string? = some (Text.letters 300) :=
    Statement.string?_ofOperand (Text.quotable_letters 300) 1
  obtain ⟨counted, -, -⟩ := strings_selfDelimiting { msb := true } {} 0
  obtain ⟨-, marked, tooLong⟩ := strings_selfDelimiting {} {} 0
  obtain ⟨stands, reported⟩ := tooLong [long] 0 long (Text.letters 300) rfl rfl string
    (by rw [size]; decide) rfl
  refine ⟨short, filled, (counted _ short).1, (marked _ rfl filled).1, string, by rw [size]; decide,
    reported, ?_⟩
  have bytes := stands rfl
  rw [size] at bytes
  exact bytes

end Asm6502
