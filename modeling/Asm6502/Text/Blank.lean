/-!
# Blanks and words

A blank is a character with the Unicode property `White_Space`. Source lines are trimmed and cut
into words at blanks; the scanner of the assembly language has a narrower notion of its own.
-/

namespace Asm6502.Text

/-- The characters with the property `White_Space`. -/
def isBlank (c : Char) : Bool :=
  let n := c.toNat
  (9 ≤ n && n ≤ 13) || n == 0x20 || n == 0x85 || n == 0xA0 || n == 0x1680 ||
    (0x2000 ≤ n && n ≤ 0x200A) || n == 0x2028 || n == 0x2029 || n == 0x202F || n == 0x205F ||
    n == 0x3000

/-- The text without its leading blanks. -/
def trimStart (cs : List Char) : List Char := cs.dropWhile isBlank

/-- The text without its trailing blanks. -/
def trimEnd (cs : List Char) : List Char := (cs.reverse.dropWhile isBlank).reverse

/-- The text without its leading and trailing blanks. -/
def trim (cs : List Char) : List Char := trimEnd (trimStart cs)

/-- The first word of a text and what follows it, if the text has a word. -/
def nextWord? (cs : List Char) : Option (List Char × List Char) :=
  match trimStart cs with
  | [] => none
  | c :: rest => some ((c :: rest).span (!isBlank ·))

/-- The first word of a text. -/
def firstWord? (cs : List Char) : Option (List Char) := (nextWord? cs).map (·.1)

/-- `trim` on strings. -/
def trimmed (s : String) : String := String.ofList (trim s.toList)

@[simp] theorem toList_trimmed (s : String) : (trimmed s).toList = trim s.toList := by
  simp [trimmed]

@[simp] theorem trimStart_nil : trimStart [] = [] := rfl

@[simp] theorem trimEnd_nil : trimEnd [] = [] := rfl

@[simp] theorem trim_nil : trim [] = [] := rfl

theorem trimEnd_prefix (cs : List Char) : trimEnd cs <+: cs := by
  have suffix := List.dropWhile_suffix isBlank (l := cs.reverse)
  have reversed := List.reverse_prefix.mpr suffix
  rwa [List.reverse_reverse] at reversed

/-- Blanks are trimmed up to the last character that is none. -/
theorem trimEnd_append {front : List Char} (solid : ∀ c ∈ front.getLast?, isBlank c = false)
    (back : List Char) : trimEnd (front ++ back) = front ++ trimEnd back := by
  have stays : front.reverse.dropWhile isBlank = front.reverse := by
    rcases List.eq_nil_or_concat front with rfl | ⟨init, last, rfl⟩
    · rfl
    · simp [solid last (by simp)]
  simp only [trimEnd, List.reverse_append, List.dropWhile_append]
  split
  · rename_i blank
    simp [stays, List.isEmpty_iff.mp blank]
  · simp

end Asm6502.Text
