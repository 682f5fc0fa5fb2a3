import Asm6502.Proofs.Instruction
import Asm6502.Proofs.SymbolHistory

/-!
# Keywords

A word is a mnemonic, the keyword of a directive or neither. The mnemonics and the keywords are in
capitals, so a word is one of them if it has its letters in any case (`Opcode.find?_eq_some_iff`,
`Directive.ofKeyword?_eq_some_iff`), and no word is in both tables (`ofKeyword?_of_find?`). The kind
of a word does therefore not depend on the table that is searched first. From the table of mnemonics
a byte is read back to the entry and the mode that it encodes, and to no other
(`Opcode.decode?_eq_some_iff`).
-/

namespace Asm6502

/-! ### Searches in tables -/

/-- A search only asks for what the entries of the table have. -/
theorem find?_congr {α : Type} {entries : List α} {p q : α → Bool}
    (same : ∀ entry ∈ entries, p entry = q entry) : entries.find? p = entries.find? q := by
  rw [← List.head?_filter, List.filter_congr same, List.head?_filter]

theorem lookup_eq_map_find? {α β : Type} [BEq α] (entries : List (α × β)) (key : α) :
    entries.lookup key = (entries.find? (key == ·.1)).map (·.2) := by
  induction entries with
  | nil => rfl
  | cons entry entries ih =>
    rw [List.lookup_cons, List.find?_cons]
    cases key == entry.1 with
    | true => rfl
    | false => exact ih

/-- A word in capitals has the letters of another one if it is this one in upper case. -/
theorem Text.sameLetters_of_upper {capitals : String} (same : upper capitals = capitals)
    (word : String) : sameLetters capitals word = (capitals == upper word) := by
  rw [Bool.eq_iff_iff, sameLetters_iff, same, beq_iff_eq]

/-! ### Mnemonics -/

namespace Opcode

variable {opcode : Opcode} {mode : Mode} {byte : UInt8} {word : String}

theorem upper_mnemonic (listed : opcode ∈ table) :
    Text.upper opcode.mnemonic = opcode.mnemonic := by
  have all : ∀ opcode ∈ table, Text.upper opcode.mnemonic = opcode.mnemonic := by decide +kernel
  exact all opcode listed

/-- A mnemonic is found by each word with its letters, and by no other word. -/
theorem find?_eq_some_iff : find? word = some opcode ↔
    opcode ∈ table ∧ Text.sameLetters opcode.mnemonic word = true := by
  constructor
  · intro found
    obtain ⟨listed, named⟩ := find?_eq_some found
    rw [Text.sameLetters_of_upper (upper_mnemonic listed), beq_iff_eq]
    exact ⟨listed, named⟩
  · rintro ⟨listed, letters⟩
    rw [Text.sameLetters_of_upper (upper_mnemonic listed), beq_iff_eq] at letters
    exact find?_of_mem listed letters

theorem find?_eq_linear (word : String) :
    find? word = table.find? fun opcode => Text.sameLetters opcode.mnemonic word := by
  rw [find?_eq]
  exact find?_congr fun opcode listed =>
    (Text.sameLetters_of_upper (upper_mnemonic listed) word).symm

/-- A mnemonic has one opcode byte for each of its modes. -/
theorem encoding?_of_mem (listed : opcode ∈ table) (coded : (mode, byte) ∈ opcode.encodings) :
    opcode.encoding? mode = some byte := by
  have all : ∀ opcode ∈ table, ∀ entry ∈ opcode.encodings,
      opcode.encoding? entry.1 = some entry.2 := by decide +kernel
  exact all opcode listed (mode, byte) coded

/-- A byte is read back to the entry and the mode that it encodes, and to no other. -/
theorem decode?_eq_some_iff : decode? byte = some (opcode, mode) ↔
    opcode ∈ table ∧ opcode.encoding? mode = some byte := by
  constructor
  · intro decoded
    obtain ⟨entry, listed, found⟩ := List.exists_of_findSome?_eq_some decoded
    obtain ⟨coded, first, same⟩ := Option.map_eq_some_iff.mp found
    obtain ⟨rfl, rfl⟩ := Prod.mk.inj same
    have value : coded.2 = byte := by simpa using List.find?_some first
    refine ⟨listed, encoding?_of_mem listed ?_⟩
    rw [← value]
    exact List.mem_of_find?_eq_some first
  · rintro ⟨listed, encoding⟩
    exact decode?_of_encoding? listed encoding

end Opcode

/-! ### Keywords of directives -/

namespace Directive

variable {entry : String × Directive} {directive : Directive} {word : String}

theorem upper_keyword (listed : entry ∈ keywords) : Text.upper entry.1 = entry.1 := by
  have all : ∀ entry ∈ keywords, Text.upper entry.1 = entry.1 := by decide +kernel
  exact all entry listed

theorem ofKeyword?_eq_linear (word : String) :
    ofKeyword? word =
      (keywords.find? fun entry => Text.sameLetters entry.1 word).map (·.2) := by
  have same : keywords.find? (Text.upper word == ·.1) =
      keywords.find? fun entry => Text.sameLetters entry.1 word := by
    refine find?_congr fun entry listed => ?_
    rw [Text.sameLetters_of_upper (upper_keyword listed), Bool.eq_iff_iff, beq_iff_eq, beq_iff_eq,
      eq_comm]
  rw [ofKeyword?, lookup_eq_map_find?, same]

theorem ofKeyword?_of_mem (listed : entry ∈ keywords) : ofKeyword? entry.1 = some entry.2 := by
  have all : ∀ entry ∈ keywords, ofKeyword? entry.1 = some entry.2 := by decide +kernel
  exact all entry listed

/-- A directive is found by each word with the letters of one of its keywords, and by no other
word. -/
theorem ofKeyword?_eq_some_iff : ofKeyword? word = some directive ↔
    ∃ keyword, (keyword, directive) ∈ keywords ∧ Text.sameLetters keyword word = true := by
  constructor
  · intro found
    rw [ofKeyword?_eq_linear, Option.map_eq_some_iff] at found
    obtain ⟨entry, first, rfl⟩ := found
    have letters : Text.sameLetters entry.1 word = true := by simpa using List.find?_some first
    exact ⟨entry.1, List.mem_of_find?_eq_some first, letters⟩
  · rintro ⟨keyword, listed, letters⟩
    have own := ofKeyword?_of_mem listed
    rw [Text.sameLetters_of_upper (upper_keyword listed), beq_iff_eq] at letters
    rw [ofKeyword?, upper_keyword listed, letters] at own
    exact own

end Directive

/-! ### Both tables -/

/-- A mnemonic is no keyword of a directive. -/
theorem ofKeyword?_of_find? {word : String} {opcode : Opcode}
    (found : Opcode.find? word = some opcode) : Directive.ofKeyword? word = none := by
  have apart : ∀ entry ∈ Directive.keywords, Opcode.find? entry.1 = none := by decide +kernel
  rw [Option.eq_none_iff_forall_ne_some]
  intro directive known
  obtain ⟨keyword, listed, letters⟩ := Directive.ofKeyword?_eq_some_iff.mp known
  rw [Text.sameLetters_iff] at letters
  have missing : Opcode.find? keyword = none := apart (keyword, directive) listed
  rw [← Opcode.find?_upper, letters, Opcode.find?_upper, found] at missing
  cases missing

/-- The kind of a word is the same if the directives are asked for first. -/
theorem kind_of_word {piece : Scan.Piece} (word : piece.pattern = .word) :
    piece.kind =
      (((Directive.ofKeyword? piece.lexeme).map .directive).or
        ((Opcode.find? piece.lexeme).map fun _ => .mnemonic)).getD .symbol := by
  rw [Scan.Piece.kind, word]
  cases found : Opcode.find? piece.lexeme with
  | none => simp [TokenKind.ofKeyword?, found]
  | some opcode => simp [TokenKind.ofKeyword?, found, ofKeyword?_of_find? found]

/-- **Keywords are looked up exactly.** For every word, the search for a mnemonic finds the entry
whose mnemonic has the letters of the word, in any case, and nothing if there is none, as a search
through the whole table does; so does the search for a directive; no word is found by both, so that
the kind of a word is the same whichever is asked for first; and an opcode byte is read back to the
one entry and mode that it encodes. -/
theorem keyword_lookup_exact :
    (∀ word : String,
      (Opcode.find? word =
        Opcode.table.find? fun opcode => Text.sameLetters opcode.mnemonic word) ∧
      (∀ opcode, Opcode.find? word = some opcode ↔
        opcode ∈ Opcode.table ∧ Text.sameLetters opcode.mnemonic word = true) ∧
      (Directive.ofKeyword? word =
        (Directive.keywords.find? fun entry => Text.sameLetters entry.1 word).map (·.2)) ∧
      (∀ directive, Directive.ofKeyword? word = some directive ↔
        ∃ keyword, (keyword, directive) ∈ Directive.keywords ∧
          Text.sameLetters keyword word = true) ∧
      (Opcode.find? word = none ∨ Directive.ofKeyword? word = none)) ∧
    (∀ piece : Scan.Piece, piece.pattern = .word →
      piece.kind =
        (((Directive.ofKeyword? piece.lexeme).map .directive).or
          ((Opcode.find? piece.lexeme).map fun _ => .mnemonic)).getD .symbol) ∧
    (∀ opcode ∈ Opcode.table, ∀ (mode : Mode) (byte : UInt8),
      opcode.encoding? mode = some byte ↔ Opcode.decode? byte = some (opcode, mode)) := by
  refine ⟨fun word => ⟨Opcode.find?_eq_linear word, fun opcode => Opcode.find?_eq_some_iff,
    Directive.ofKeyword?_eq_linear word, fun directive => Directive.ofKeyword?_eq_some_iff, ?_⟩,
    fun piece word => kind_of_word word, fun opcode listed mode byte => ?_⟩
  · cases found : Opcode.find? word with
    | none => exact .inl rfl
    | some opcode => exact .inr (ofKeyword?_of_find? found)
  · rw [Opcode.decode?_eq_some_iff]
    exact ⟨fun encoding => ⟨listed, encoding⟩, fun both => both.2⟩

/-- `jMp` is the mnemonic `JMP`, whose indirect mode is encoded by `$6C`, and `Entry` is the keyword
of a directive; `ſta`, with a long s, is no mnemonic, although the capital of its first letter is an
`S`. -/
theorem keyword_lookup_exact_jump :
    let jump : Opcode := ⟨"JMP", [(.absolute, 0x4C), (.indirect, 0x6C)]⟩
    (jump ∈ Opcode.table ∧ Opcode.find? "jMp" = some jump ∧
      Opcode.decode? 0x6C = some (jump, .indirect)) ∧
    (⟨.word, "Entry".toList, 3⟩ : Scan.Piece).kind = .directive .entries ∧
    (∀ opcode, Opcode.find? "ſta" = some opcode ↔
      opcode ∈ Opcode.table ∧ Text.sameLetters opcode.mnemonic "ſta" = true) ∧
    Opcode.find? "ſta" = none := by
  intro jump
  obtain ⟨words, kinds, bytes⟩ := keyword_lookup_exact
  have listed : jump ∈ Opcode.table := by decide +kernel
  obtain ⟨-, found, -⟩ := words "jMp"
  obtain ⟨linear, long, -⟩ := words "ſta"
  refine ⟨⟨listed, (found jump).mpr ⟨listed, by decide⟩, (bytes jump listed _ _).mp (by decide)⟩,
    (kinds _ rfl).trans (by decide +kernel), long, linear.trans (by decide +kernel)⟩

end Asm6502
