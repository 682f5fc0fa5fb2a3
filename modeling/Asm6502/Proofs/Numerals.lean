import Asm6502.Text.Numeral
import Mathlib.Data.List.Induction
import Mathlib.Data.Nat.Digits.Defs
import Mathlib.Data.Nat.ModEq

/-!
# The value of number literals

A number literal may have any length. Its value is computed in 32 bits and cut to 16 bits after
every digit, and it is the number that the literal denotes modulo 2^16, whatever the radix
(`toNat_accumulate`): the cut commutes with the next multiplication and addition. Since a cut value
times sixteen is far below 2^32, no step overflows (`accumulate_fits`).

What a literal denotes is said here without the computation. A mark at its start tells the radix
(`radixMarks`, `Numeral`); of the text after the mark, the characters of the digits `0` to `9` and
`a` to `f` that are below the radix count, in either letter case (`digitOf?`); and they denote a
number by their places (`denoted`).
-/

namespace Asm6502.Text

/-! ### What a literal denotes -/

/-- The marks at the start of a literal and the radix that each one announces. -/
def radixMarks : List (String × Nat) :=
  [("$", 16), ("0x", 16), ("0X", 16), ("%", 2), ("0b", 2), ("0B", 2), ("@", 8)]

/-- The literal starts with no mark. -/
def Unmarked (lexeme : String) : Prop :=
  ∀ entry ∈ radixMarks, ¬ entry.1.toList <+: lexeme.toList

instance (lexeme : String) : Decidable (Unmarked lexeme) :=
  inferInstanceAs (Decidable (∀ entry ∈ radixMarks, ¬ entry.1.toList <+: lexeme.toList))

/-- The literal has the given radix and the given text after its mark. -/
inductive Numeral : (lexeme : String) → (radix : Nat) → (text : String) → Prop
  /-- A mark tells the radix. -/
  | marked {mark : String} {radix : Nat} (listed : (mark, radix) ∈ radixMarks) (text : String) :
      Numeral (mark ++ text) radix text
  /-- A literal without a mark is decimal. -/
  | plain {text : String} (unmarked : Unmarked text) : Numeral text 10 text

/-- The digit of a radix that a character is, in either letter case. -/
def digitOf? (radix : Nat) (c : Char) : Option Nat :=
  (List.range radix).find? (Nat.digitChar · == c.toLower)

/-- The digits of a text; other characters are skipped. -/
def digitsOf (radix : Nat) (text : String) : List Nat := text.toList.filterMap (digitOf? radix)

/-- The number that the digits of a text denote, the last digit being the lowest. -/
def denoted (radix : Nat) (text : String) : Nat := Nat.ofDigits radix (digitsOf radix text).reverse

/-- The text is a spelling of the number: it has digits only, and they denote the number. -/
structure Spelling (radix : Nat) (text : String) (n : Nat) : Prop where
  digits : ∀ c ∈ text.toList, (digitOf? radix c).isSome = true
  value : denoted radix text = n

/-- No step of the computation reaches 2^32. -/
def NeverOverflows (radix : Nat) (digits : List Nat) : Prop :=
  ∀ before digit after, digits = before ++ digit :: after →
    (accumulate radix before).toNat * radix + digit < 2 ^ 32

/-- A text of zeros. -/
def zeros (count : Nat) : String := String.ofList (List.replicate count '0')

/-! ### Digits -/

theorem digitChar_inj {a b : Nat} (small : a < 16) (small' : b < 16)
    (same : Nat.digitChar a = Nat.digitChar b) : a = b := by
  have all : ∀ a < 16, ∀ b < 16, Nat.digitChar a = Nat.digitChar b → a = b := by decide
  exact all a small b small' same

theorem digitOf?_eq_some_iff {radix : Nat} (small : radix ≤ 16) {c : Char} {d : Nat} :
    digitOf? radix c = some d ↔ d < radix ∧ Nat.digitChar d = c.toLower := by
  rw [digitOf?, List.find?_range_eq_some, List.mem_range, beq_iff_eq]
  constructor
  · rintro ⟨char, below, -⟩
    exact ⟨below, char⟩
  · rintro ⟨below, char⟩
    refine ⟨char, below, fun other less => ?_⟩
    rw [Bool.not_eq_true', beq_eq_false_iff_ne, ← char]
    intro same
    have equal := digitChar_inj (by omega) (by omega) same
    omega

/-- No character beyond ASCII is a digit. -/
theorem digitOf?_wide {radix : Nat} (small : radix ≤ 16) {c : Char} (wide : 0x7F < c.toNat) :
    digitOf? radix c = none := by
  have ascii : ∀ d < 16, (Nat.digitChar d).toNat ≤ 0x7F := by decide
  have same : c.toLower = c := by
    refine dif_neg fun letter => ?_
    have most : c.toNat ≤ 90 := letter.2
    omega
  rw [Option.eq_none_iff_forall_ne_some]
  intro d digit
  obtain ⟨below, char⟩ := (digitOf?_eq_some_iff small).mp digit
  have narrow := ascii d (by omega)
  rw [char, same] at narrow
  omega

theorem digit?_eq (c : Char) : digit? c = digitOf? 16 c := by
  rcases Nat.lt_or_ge 0x7F c.toNat with wide | narrow
  · have beyond {d : Char} (ascii : d.toNat ≤ 0x7F) : ¬ c ≤ d := by
      intro le
      have codes : c.toNat ≤ d.toNat := le
      omega
    have decimal : ¬ ('0' ≤ c ∧ c ≤ '9') := fun range => beyond (by decide) range.2
    have capital : ¬ ('A' ≤ c ∧ c ≤ 'F') := fun range => beyond (by decide) range.2
    have small : ¬ ('a' ≤ c ∧ c ≤ 'f') := fun range => beyond (by decide) range.2
    rw [digitOf?_wide (Nat.le_refl _) wide, digit?, if_neg decimal, if_neg capital, if_neg small]
  · have ascii : ∀ n < 128, digit? (Char.ofNat n) = digitOf? 16 (Char.ofNat n) := by decide
    rw [← Char.ofNat_toNat c]
    exact ascii c.toNat (Nat.lt_succ_of_le narrow)

theorem digitIn?_eq {radix : Nat} (small : radix ≤ 16) (c : Char) :
    digitIn? radix c = digitOf? radix c := by
  ext d
  rw [digitIn?, Option.filter_eq_some_iff, digit?_eq, digitOf?_eq_some_iff (Nat.le_refl _),
    digitOf?_eq_some_iff small, decide_eq_true_eq]
  constructor
  · rintro ⟨⟨-, char⟩, below⟩
    exact ⟨below, char⟩
  · rintro ⟨below, char⟩
    exact ⟨⟨by omega, char⟩, below⟩

theorem lt_of_mem_digitsOf {radix : Nat} (small : radix ≤ 16) {text : String} {d : Nat}
    (mem : d ∈ digitsOf radix text) : d < radix := by
  obtain ⟨c, -, digit⟩ := List.mem_filterMap.mp mem
  exact ((digitOf?_eq_some_iff small).mp digit).1

/-! ### Accumulation -/

/-- The cut of the 32 bits to 16 bits is a remainder, whether the 32 bits overflow or not. -/
theorem toNat_appendDigit (radix : Nat) (value : UInt32) (digit : Nat) :
    (appendDigit radix value digit).toNat = (value.toNat * radix + digit) % 2 ^ 16 := by
  have kept : value.toNat * (radix % 2 ^ 32) % 2 ^ 32 + digit % 2 ^ 32 ≡
      value.toNat * radix + digit [MOD 2 ^ 32] :=
    ((Nat.mod_modEq _ _).trans ((Nat.mod_modEq _ _).mul_left _)).add (Nat.mod_modEq _ _)
  rw [appendDigit, UInt32.toNat_and, UInt32.toNat_add, UInt32.toNat_mul, UInt32.toNat_ofNat',
    UInt32.toNat_ofNat', show (0xFFFF : UInt32).toNat = 2 ^ 16 - 1 from rfl,
    Nat.and_two_pow_sub_one_eq_mod, Nat.mod_mod_of_dvd _ (by decide)]
  exact kept.of_dvd (by decide)

theorem accumulate_concat (radix : Nat) (digits : List Nat) (digit : Nat) :
    accumulate radix (digits ++ [digit]) = appendDigit radix (accumulate radix digits) digit := by
  rw [accumulate, List.foldl_append, List.foldl_cons, List.foldl_nil, accumulate]

/-- **The accumulated value is the exact one modulo 2^16**, for any number of digits. -/
theorem toNat_accumulate (radix : Nat) (digits : List Nat) :
    (accumulate radix digits).toNat = Nat.ofDigits radix digits.reverse % 2 ^ 16 := by
  induction digits using List.reverseRecOn with
  | nil => rfl
  | append_singleton digits digit ih =>
    rw [accumulate_concat, toNat_appendDigit, ih, List.reverse_append, List.reverse_singleton,
      List.singleton_append, Nat.ofDigits_cons, Nat.mul_comm radix, Nat.add_comm digit]
    exact ((Nat.mod_modEq _ _).mul_right radix).add_right digit

theorem accumulate_lt (radix : Nat) (digits : List Nat) :
    (accumulate radix digits).toNat < 2 ^ 16 := by
  rw [toNat_accumulate]
  exact Nat.mod_lt _ (by decide)

/-- A value of 16 bits leaves room for one more digit in 32 bits. -/
theorem accumulate_fits {radix : Nat} (small : radix ≤ 16) {digits : List Nat}
    (below : ∀ d ∈ digits, d < radix) : NeverOverflows radix digits := by
  rintro before digit after rfl
  have room := Nat.mul_le_mul (Nat.le_of_lt (accumulate_lt radix before)) small
  have last := below digit (by simp)
  omega

/-- The value that is computed fits in a word. -/
theorem toNat_numericValue {lexeme : String} {radix : Nat} {cs : List Char}
    (announced : radixOf lexeme.toList = (radix, cs)) :
    (numericValue lexeme).toNat = (accumulate radix (cs.filterMap (digitIn? radix))).toNat := by
  have fits := accumulate_lt radix (cs.filterMap (digitIn? radix))
  simp only [numericValue, announced]
  rw [if_pos (UInt32.le_iff_toNat_le.mpr (Nat.le_of_lt_succ fits)), UInt32.toNat_toUInt16,
    Nat.mod_eq_of_lt fits]

/-! ### Marks -/

section Marks

variable {lexeme text : String} {radix : Nat}

theorem radix_bounds (numeral : Numeral lexeme radix text) : 2 ≤ radix ∧ radix ≤ 16 := by
  cases numeral with
  | marked listed =>
    have all : ∀ entry ∈ radixMarks, 2 ≤ entry.2 ∧ entry.2 ≤ 16 := by decide
    exact all _ listed
  | plain => decide

/-- The mark of a literal is what its first characters announce. -/
theorem radixOf_of_numeral (numeral : Numeral lexeme radix text) :
    radixOf lexeme.toList = (radix, text.toList) := by
  cases numeral with
  | marked listed =>
    rw [String.toList_append]
    simp only [radixMarks, List.mem_cons, Prod.mk.injEq, List.not_mem_nil, or_false] at listed
    rcases listed with ⟨rfl, rfl⟩ | ⟨rfl, rfl⟩ | ⟨rfl, rfl⟩ | ⟨rfl, rfl⟩ | ⟨rfl, rfl⟩ | ⟨rfl, rfl⟩ |
      ⟨rfl, rfl⟩ <;> rfl
  | plain unmarked =>
    have free (entry : String × Nat) (listed : entry ∈ radixMarks) (rest : List Char)
        (starts : lexeme.toList = entry.1.toList ++ rest) : False :=
      unmarked entry listed ⟨rest, starts.symm⟩
    exact radixOf.eq_8 _ (free ("$", 16) (by decide)) (free ("0x", 16) (by decide))
      (free ("0X", 16) (by decide)) (free ("%", 2) (by decide)) (free ("0b", 2) (by decide))
      (free ("0B", 2) (by decide)) (free ("@", 8) (by decide))

theorem exists_numeral (lexeme : String) : ∃ radix text, Numeral lexeme radix text := by
  by_cases marked : ∃ entry ∈ radixMarks, entry.1.toList <+: lexeme.toList
  · obtain ⟨⟨mark, radix⟩, listed, rest, split⟩ := marked
    have whole : mark ++ String.ofList rest = lexeme := by
      rw [← String.toList_inj, String.toList_append, String.toList_ofList, split]
    exact ⟨radix, String.ofList rest, whole ▸ .marked listed _⟩
  · exact ⟨10, lexeme, .plain fun entry listed starts => marked ⟨entry, listed, starts⟩⟩

/-- A literal has one radix and one text after its mark. -/
theorem existsUnique_numeral (lexeme : String) :
    ∃! split : Nat × String, Numeral lexeme split.1 split.2 := by
  obtain ⟨radix, text, numeral⟩ := exists_numeral lexeme
  refine ⟨(radix, text), numeral, fun other numeral' => ?_⟩
  have same := (radixOf_of_numeral numeral').symm.trans (radixOf_of_numeral numeral)
  rw [Prod.mk.injEq, String.toList_inj] at same
  exact Prod.ext same.1 same.2

theorem toNat_numericValue_eq_accumulate (numeral : Numeral lexeme radix text) :
    (numericValue lexeme).toNat = (accumulate radix (digitsOf radix text)).toNat := by
  rw [toNat_numericValue (radixOf_of_numeral numeral), digitsOf,
    funext (digitIn?_eq (radix_bounds numeral).2)]

/-- The value of a literal is the number that it denotes, modulo 2^16. -/
theorem toNat_numericValue_eq_denoted (numeral : Numeral lexeme radix text) :
    (numericValue lexeme).toNat = denoted radix text % 2 ^ 16 := by
  rw [toNat_numericValue_eq_accumulate numeral, toNat_accumulate, denoted]

/-- Digits are no part of a mark. -/
theorem unmarked_of_digits (digits : ∀ c ∈ text.toList, (digitOf? 10 c).isSome = true) :
    Unmarked text := by
  have strange : radixMarks.all (fun entry =>
      entry.1.toList.any fun c => (digitOf? 10 c).isNone) = true := by decide
  intro entry listed starts
  obtain ⟨c, mem, none⟩ := List.any_eq_true.mp (List.all_eq_true.mp strange entry listed)
  have digit := digits c (starts.subset mem)
  rw [Option.isNone_iff_eq_none.mp none] at digit
  cases digit

end Marks

/-! ### Spellings -/

section Spellings

variable {radix : Nat}

theorem denoted_zeros (least : 2 ≤ radix) (most : radix ≤ 16) (count : Nat) (text : String) :
    denoted radix (zeros count ++ text) = denoted radix text := by
  have zero : digitOf? radix '0' = some 0 := (digitOf?_eq_some_iff most).mpr ⟨by omega, by decide⟩
  have digits : digitsOf radix (zeros count ++ text) =
      List.replicate count 0 ++ digitsOf radix text := by
    rw [digitsOf, String.toList_append, zeros, String.toList_ofList, List.filterMap_append,
      List.filterMap_replicate_of_some zero, digitsOf]
  rw [denoted, digits, List.reverse_append, List.reverse_replicate,
    Nat.ofDigits_append_replicate_zero, denoted]

/-- Zeros before the digits do not change the value of a literal, if its radix is the same. -/
theorem numericValue_zeros {lexeme padded text : String} {count : Nat}
    (numeral : Numeral lexeme radix text) (numeral' : Numeral padded radix (zeros count ++ text)) :
    numericValue padded = numericValue lexeme := by
  obtain ⟨least, most⟩ := radix_bounds numeral
  rw [← UInt16.toNat_inj, toNat_numericValue_eq_denoted numeral,
    toNat_numericValue_eq_denoted numeral', denoted_zeros least most]

/-- Characters that are those of digits but for their letter case are these digits. -/
theorem digits_of_spelled (most : radix ≤ 16) {cs : List Char} {ds : List Nat}
    (below : ∀ d ∈ ds, d < radix) (spelled : cs.map Char.toLower = ds.map Nat.digitChar) :
    (∀ c ∈ cs, (digitOf? radix c).isSome = true) ∧ cs.filterMap (digitOf? radix) = ds := by
  induction ds generalizing cs with
  | nil =>
    obtain rfl := List.map_eq_nil_iff.mp spelled
    exact ⟨fun c mem => (by cases mem), rfl⟩
  | cons d ds ih =>
    obtain ⟨c, cs, rfl, char, rest⟩ := List.map_eq_cons_iff.mp spelled
    obtain ⟨digits, values⟩ := ih (fun d mem => below d (List.mem_cons_of_mem _ mem)) rest
    have first : digitOf? radix c = some d :=
      (digitOf?_eq_some_iff most).mpr ⟨below d List.mem_cons_self, char.symm⟩
    exact ⟨List.forall_mem_cons.mpr ⟨by rw [first]; rfl, digits⟩,
      by rw [List.filterMap_cons_some first, values]⟩

/-- The usual numeral of a number is made of its digits. -/
theorem exists_digits (least : 2 ≤ radix) (n : Nat) :
    ∃ ds : List Nat, Nat.toDigits radix n = ds.map Nat.digitChar ∧ (∀ d ∈ ds, d < radix) ∧
      Nat.ofDigits radix ds.reverse = n := by
  induction n using Nat.strongRecOn with
  | ind n ih =>
    rcases Nat.lt_or_ge n radix with small | large
    · refine ⟨[n], by rw [Nat.toDigits_of_lt_base small]; rfl, by simpa using small, by simp⟩
    · obtain ⟨ds, numeral, below, value⟩ := ih (n / radix) (Nat.div_lt_self (by omega) least)
      refine ⟨ds ++ [n % radix], ?_, ?_, ?_⟩
      · rw [Nat.toDigits_of_base_le least large, numeral, List.map_append, List.map_singleton]
      · intro d mem
        rcases List.mem_append.mp mem with mem | mem
        · exact below d mem
        · rw [List.mem_singleton.mp mem]
          exact Nat.mod_lt _ (by omega)
      · rw [List.reverse_append, List.reverse_singleton, List.singleton_append, Nat.ofDigits_cons,
          value, Nat.mod_add_div]

/-- The usual numeral of a number after any zeros, with each letter in either case, is a spelling of
the number. -/
theorem spelling_of_toDigits (least : 2 ≤ radix) (most : radix ≤ 16) {count n : Nat} {text : String}
    (written : text.toList.map Char.toLower = List.replicate count '0' ++ Nat.toDigits radix n) :
    Spelling radix text n := by
  obtain ⟨ds, numeral, below, value⟩ := exists_digits least n
  have padded : text.toList.map Char.toLower =
      (List.replicate count 0 ++ ds).map Nat.digitChar := by
    rw [written, numeral, List.map_append, List.map_replicate]
    rfl
  have small : ∀ d ∈ List.replicate count 0 ++ ds, d < radix := by
    intro d mem
    rcases List.mem_append.mp mem with zero | mem
    · rw [List.eq_of_mem_replicate zero]
      omega
    · exact below d mem
  obtain ⟨digits, values⟩ := digits_of_spelled most small padded
  refine ⟨digits, ?_⟩
  rw [denoted, digitsOf, values, List.reverse_append, List.reverse_replicate,
    Nat.ofDigits_append_replicate_zero, value]

/-- The value of a spelling after its mark is the number that it spells; a decimal spelling has no
mark. -/
theorem toNat_numericValue_of_spelling {entry : String × Nat}
    (listed : entry ∈ ("", 10) :: radixMarks) {text : String} {n : Nat} (small : n < 2 ^ 16)
    (spelling : Spelling entry.2 text n) : (numericValue (entry.1 ++ text)).toNat = n := by
  have numeral : Numeral (entry.1 ++ text) entry.2 text := by
    rcases List.mem_cons.mp listed with rfl | marked
    · rw [String.empty_append]
      exact .plain (unmarked_of_digits spelling.digits)
    · exact .marked marked text
  rw [toNat_numericValue_eq_denoted numeral, spelling.value, Nat.mod_eq_of_lt small]

end Spellings

/-- **Number literals of any length.** Every literal has one radix and one text after its mark. Its
value is the number that the digits of this text denote, modulo 2^16, and is computed in 32 bits
without an overflow. So zeros after the mark change nothing, nor do zeros before a literal without a
mark unless they make one with it; and each spelling of a number below 2^16, in any radix, with any
zeros and with letters in either case, has this number as its value. -/
theorem numericValue_exact :
    (∀ lexeme : String, ∃! split : Nat × String, Numeral lexeme split.1 split.2) ∧
    (∀ (lexeme : String) (radix : Nat) (text : String), Numeral lexeme radix text →
      (numericValue lexeme).toNat = denoted radix text % 2 ^ 16 ∧
        (numericValue lexeme).toNat = (accumulate radix (digitsOf radix text)).toNat ∧
        NeverOverflows radix (digitsOf radix text)) ∧
    (∀ entry ∈ radixMarks, ∀ (count : Nat) (text : String),
      numericValue (entry.1 ++ (zeros count ++ text)) = numericValue (entry.1 ++ text)) ∧
    (∀ (count : Nat) (text : String), Unmarked text → Unmarked (zeros count ++ text) →
      numericValue (zeros count ++ text) = numericValue text) ∧
    (∀ entry ∈ ("", 10) :: radixMarks, ∀ (text : String) (n : Nat), n < 2 ^ 16 →
      Spelling entry.2 text n → (numericValue (entry.1 ++ text)).toNat = n) ∧
    (∀ entry ∈ ("", 10) :: radixMarks, ∀ (count n : Nat) (text : String),
      text.toList.map Char.toLower = List.replicate count '0' ++ Nat.toDigits entry.2 n →
      Spelling entry.2 text n) := by
  refine ⟨existsUnique_numeral, fun lexeme radix text numeral => ?_, ?_, ?_, ?_, ?_⟩
  · have most := (radix_bounds numeral).2
    exact ⟨toNat_numericValue_eq_denoted numeral, toNat_numericValue_eq_accumulate numeral,
      accumulate_fits most fun d mem => lt_of_mem_digitsOf most mem⟩
  · exact fun entry listed count text => numericValue_zeros (.marked listed text) (.marked listed _)
  · intro count text unmarked unmarked'
    exact numericValue_zeros (.plain unmarked) (.plain unmarked')
  · intro entry listed text n small spelling
    exact toNat_numericValue_of_spelling listed small spelling
  · intro entry listed count n text written
    have bounds : ∀ entry ∈ ("", 10) :: radixMarks, 2 ≤ entry.2 ∧ entry.2 ≤ 16 := by decide
    exact spelling_of_toDigits (bounds entry listed).1 (bounds entry listed).2 written

/-- A hexadecimal literal longer than a word, with characters to skip; zeros before a decimal
literal that starts with a letter; and a spelling with a zero and with letters in both cases. -/
theorem numericValue_exact_mixed :
    (Numeral "0X1_23g45" 16 "1_23g45" ∧ (numericValue "0X1_23g45").toNat = 0x2345 ∧
      NeverOverflows 16 [1, 2, 3, 4, 5]) ∧
    numericValue "@00017" = numericValue "@17" ∧
    (Unmarked "b2" ∧ Unmarked "00b2" ∧ numericValue "00b2" = numericValue "b2") ∧
    (Spelling 16 "0BeEf" 0xBEEF ∧ (numericValue "$0BeEf").toNat = 0xBEEF) := by
  obtain ⟨-, value, zeros, plainZeros, spelled, written⟩ := numericValue_exact
  have listed : ("0X", 16) ∈ radixMarks := by decide
  have numeral : Numeral "0X1_23g45" 16 "1_23g45" := .marked listed "1_23g45"
  obtain ⟨denotes, -, fits⟩ := value _ _ _ numeral
  have spelling : Spelling 16 "0BeEf" 0xBEEF :=
    written ("$", 16) (by decide) 1 0xBEEF "0BeEf" (by decide)
  refine ⟨⟨numeral, denotes.trans (by decide), fits⟩, ?_, ⟨by decide, by decide, ?_⟩, spelling, ?_⟩
  · exact zeros ("@", 8) (by decide) 3 "17"
  · exact plainZeros 2 "b2" (by decide) (by decide)
  · exact spelled ("$", 16) (by decide) "0BeEf" 0xBEEF (by decide) spelling

end Asm6502.Text
