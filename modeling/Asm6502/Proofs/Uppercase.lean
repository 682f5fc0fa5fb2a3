import Asm6502.Assembly.Data
import Asm6502.Token.Scan

/-!
# Texts in upper case

What reading a text asks of its characters does not depend on their letter case: whether a character
is blank, which digit it is, which class of the scanner it belongs to. All of it is checked letter
by letter, since `Char.toUpper` changes the letters `a` to `z` only (`eq_of_toUpper`). So the value
of a numeral, the bytes that hexadecimal digits spell and the text between quotes are found in a
text in upper case as in the text itself.
-/

namespace Asm6502.Text

/-! ### Characters -/

/-- The letters that have another form in upper case. -/
def lowerLetters : List Char := "abcdefghijklmnopqrstuvwxyz".toList

/-- Every other character is its own form in upper case. -/
theorem toUpper_eq_or_mem (c : Char) : c.toUpper = c ∨ c ∈ lowerLetters := by
  by_cases lower : c.val ≥ 'a'.val ∧ c.val ≤ 'z'.val
  · right
    have letters : ∀ n < 123, 97 ≤ n → Char.ofNat n ∈ lowerLetters := by decide
    have least : 97 ≤ c.toNat := lower.1
    have most : c.toNat ≤ 122 := lower.2
    rw [← Char.ofNat_toNat c]
    exact letters c.toNat (Nat.lt_succ_of_le most) least
  · exact .inl (dif_neg lower)

/-- What is the same for the two forms of each letter is the same for a character and its form in
upper case. -/
theorem eq_of_toUpper {α : Type} [DecidableEq α] {f : Char → α}
    (letters : lowerLetters.all (fun c => f c.toUpper = f c) = true) (c : Char) :
    f c.toUpper = f c := by
  rcases toUpper_eq_or_mem c with same | lower
  · rw [same]
  · exact of_decide_eq_true (List.all_eq_true.mp letters c lower)

@[simp] theorem toUpper_toUpper (c : Char) : c.toUpper.toUpper = c.toUpper :=
  eq_of_toUpper (f := Char.toUpper) (by decide) c

@[simp] theorem isBlank_toUpper (c : Char) : isBlank c.toUpper = isBlank c :=
  eq_of_toUpper (by decide) c

@[simp] theorem digit?_toUpper (c : Char) : digit? c.toUpper = digit? c :=
  eq_of_toUpper (by decide) c

@[simp] theorem digitIn?_toUpper (radix : Nat) (c : Char) :
    digitIn? radix c.toUpper = digitIn? radix c := by
  rw [digitIn?, digit?_toUpper, digitIn?]

@[simp] theorem isDigitIn_toUpper (radix : Nat) (c : Char) :
    isDigitIn radix c.toUpper = isDigitIn radix c := by
  rw [isDigitIn, digitIn?_toUpper, isDigitIn]

/-- A character that is no letter has no other form. -/
theorem toUpper_eq_iff {c d : Char} (plain : d.isAlpha = false) : c.toUpper = d ↔ c = d := by
  have letters : lowerLetters.all (fun c => c.isAlpha && c.toUpper.isAlpha) = true := by decide
  constructor
  · rintro rfl
    rcases toUpper_eq_or_mem c with same | lower
    · exact same.symm
    · have letter := List.all_eq_true.mp letters c lower
      simp [plain] at letter
  · rintro rfl
    rcases toUpper_eq_or_mem c with same | lower
    · exact same
    · have letter := List.all_eq_true.mp letters c lower
      simp [plain] at letter

theorem toUpper_beq (c : Char) {d : Char} (plain : d.isAlpha = false) :
    (c.toUpper == d) = (c == d) := by
  rw [Bool.eq_iff_iff, beq_iff_eq, beq_iff_eq, toUpper_eq_iff plain]

/-- Characters that are no letters have no other form. -/
theorem map_toUpper_eq_iff {cs text : List Char} (plain : text.all (!·.isAlpha) = true) :
    cs.map Char.toUpper = text ↔ cs = text := by
  induction text generalizing cs with
  | nil => exact List.map_eq_nil_iff
  | cons d text ih =>
    simp only [List.all_cons, Bool.and_eq_true, Bool.not_eq_true'] at plain
    cases cs with
    | nil => simp
    | cons c cs => simp [toUpper_eq_iff plain.1, ih plain.2]

/-! ### Parts of texts -/

section Parts

variable {p : Char → Bool} (blind : ∀ c, p c.toUpper = p c) (cs : List Char)

include blind

theorem takeWhile_map_toUpper :
    (cs.map Char.toUpper).takeWhile p = (cs.takeWhile p).map Char.toUpper := by
  have same : p ∘ Char.toUpper = p := funext blind
  rw [List.takeWhile_map, same]

theorem dropWhile_map_toUpper :
    (cs.map Char.toUpper).dropWhile p = (cs.dropWhile p).map Char.toUpper := by
  have same : p ∘ Char.toUpper = p := funext blind
  rw [List.dropWhile_map, same]

end Parts

theorem trimStart_map_toUpper (cs : List Char) :
    trimStart (cs.map Char.toUpper) = (trimStart cs).map Char.toUpper :=
  dropWhile_map_toUpper isBlank_toUpper cs

theorem trimEnd_map_toUpper (cs : List Char) :
    trimEnd (cs.map Char.toUpper) = (trimEnd cs).map Char.toUpper := by
  rw [trimEnd, ← List.map_reverse, dropWhile_map_toUpper isBlank_toUpper, ← List.map_reverse,
    trimEnd]

theorem trim_map_toUpper (cs : List Char) :
    trim (cs.map Char.toUpper) = (trim cs).map Char.toUpper := by
  rw [trim, trimStart_map_toUpper, trimEnd_map_toUpper, trim]

theorem dropClosing_map_toUpper {quote : Char} (plain : quote.isAlpha = false) (cs : List Char) :
    dropClosing quote (cs.map Char.toUpper) = (dropClosing quote cs).map Char.toUpper := by
  have last : (cs.map Char.toUpper).getLast? = some quote ↔ cs.getLast? = some quote := by
    rw [List.getLast?_map]
    cases cs.getLast? with
    | none => simp
    | some c => simp [toUpper_eq_iff plain]
  simp only [dropClosing, last]
  split
  · rw [List.map_dropLast]
  · rfl

/-- The text between quotes is found in either letter case. -/
theorem unquoteChars_map_toUpper (cs : List Char) :
    unquoteChars (cs.map Char.toUpper) = (unquoteChars cs).map Char.toUpper := by
  simp only [unquoteChars, trim_map_toUpper]
  cases trim cs with
  | nil => rfl
  | cons c rest =>
    have double : c.toUpper = doubleQuote ↔ c = doubleQuote := toUpper_eq_iff (by decide)
    have single : c.toUpper = singleQuote ↔ c = singleQuote := toUpper_eq_iff (by decide)
    simp only [List.map_cons, double, single]
    split
    · rename_i quote
      have same : c.toUpper = c ∧ c.isAlpha = false := by
        rcases quote with rfl | rfl <;> decide
      rw [same.1, dropClosing_map_toUpper same.2]
    · rw [List.map_cons]

/-! ### Texts -/

@[simp] theorem upper_upper (s : String) : upper (upper s) = upper s := by
  simp [upper, Function.comp_def]

@[simp] theorem length_upper (s : String) : (upper s).length = s.length := by
  rw [← String.length_toList, toList_upper, List.length_map, String.length_toList]

@[simp] theorem isEmpty_upper (s : String) : (upper s).isEmpty = s.isEmpty := by
  rw [Bool.eq_iff_iff, String.isEmpty_iff, String.isEmpty_iff, ← String.toList_eq_nil_iff,
    ← String.toList_eq_nil_iff, toList_upper, List.map_eq_nil_iff]

/-- What is found in a text in upper case as in the text itself does not depend on the letter
case. -/
theorem eq_of_upper {α : Type} {f : String → α} (blind : ∀ s, f (upper s) = f s) {s t : String}
    (same : upper s = upper t) : f s = f t := by
  rw [← blind s, same, blind]

/-- A text without letters has no other form. -/
theorem upper_eq_iff {s text : String} (plain : text.toList.all (!·.isAlpha) = true) :
    upper s = text ↔ s = text := by
  rw [← String.toList_inj, toList_upper, map_toUpper_eq_iff plain, String.toList_inj]

theorem trimmed_upper (s : String) : trimmed (upper s) = upper (trimmed s) := by
  rw [trimmed, toList_upper, trim_map_toUpper, upper, toList_trimmed]

theorem unquote_upper (s : String) : unquote (upper s) = upper (unquote s) := by
  rw [unquote, toList_upper, unquoteChars_map_toUpper, upper, toList_unquote]

/-! ### Numbers -/

/-- A text in upper case does not start with a mark of a radix if the text itself does not. -/
theorem not_starts_map_toUpper {cs : List Char} {mark : Char} (plain : mark.isAlpha = false)
    (free : ∀ rest, cs = mark :: rest → False) (tail : List Char)
    (starts : cs.map Char.toUpper = mark :: tail) : False := by
  obtain ⟨c, rest, rfl, head, -⟩ := List.map_eq_cons_iff.mp starts
  exact free rest (by rw [(toUpper_eq_iff plain).mp head])

/-- The same for a mark that is a zero and a letter, with the letter in lower case. -/
theorem not_marked_map_toUpper {cs : List Char} {mark lower : Char}
    (forms : lowerLetters.all (fun c => c.toUpper ≠ mark || c = lower) = true)
    (free : ∀ rest, cs = '0' :: mark :: rest → False)
    (freeLower : ∀ rest, cs = '0' :: lower :: rest → False) (tail : List Char)
    (starts : cs.map Char.toUpper = '0' :: mark :: tail) : False := by
  obtain ⟨zero, rest, rfl, head, below⟩ := List.map_eq_cons_iff.mp starts
  obtain ⟨c, rest, rfl, same, -⟩ := List.map_eq_cons_iff.mp below
  obtain rfl := (toUpper_eq_iff (by decide)).mp head
  rcases toUpper_eq_or_mem c with kept | letter
  · exact free rest (by rw [← kept, same])
  · have form : c = lower := by simpa [same] using List.all_eq_true.mp forms c letter
    exact freeLower rest (by rw [form])

theorem radixOf_map_toUpper (cs : List Char) :
    radixOf (cs.map Char.toUpper) = ((radixOf cs).1, (radixOf cs).2.map Char.toUpper) := by
  fun_cases radixOf cs with
  | case8 _ noDollar noLowerX noUpperX noPercent noLowerB noUpperB noAt =>
    exact radixOf.eq_8 _ (not_starts_map_toUpper (by decide) noDollar)
      (not_marked_map_toUpper (by decide) noLowerX noLowerX)
      (not_marked_map_toUpper (by decide) noUpperX noLowerX)
      (not_starts_map_toUpper (by decide) noPercent)
      (not_marked_map_toUpper (by decide) noLowerB noLowerB)
      (not_marked_map_toUpper (by decide) noUpperB noLowerB)
      (not_starts_map_toUpper (by decide) noAt)
  | _ => rfl

/-- The value of a numeral does not depend on the letter case. -/
theorem numericValue_upper (s : String) : numericValue (upper s) = numericValue s := by
  have blind (radix : Nat) : digitIn? radix ∘ Char.toUpper = digitIn? radix :=
    funext (digitIn?_toUpper radix)
  simp only [numericValue, toList_upper, radixOf_map_toUpper, List.filterMap_map, blind]

end Asm6502.Text

namespace Asm6502.Hex

theorem digits_upper (text : String) : digits (Text.upper text) = digits text := by
  rw [digits, Text.toList_upper, List.filterMap_map, digits]
  congr 1
  funext c
  exact Text.digit?_toUpper c

theorem bytes_upper (text : String) : bytes (Text.upper text) = bytes text := by
  rw [bytes, digits_upper, bytes]

end Asm6502.Hex
