import Asm6502.Text.Numeral

/-!
# Source text

Source text is a sequence of numbered lines. Positions count lines and columns from one; columns
count characters. A byte offset into a line is told as a column of 32 bits (`Source.column`), and
columns from the largest one on are told as that one. Tokens have the columns of their first
characters as they are: they differ only on lines of 2^32 - 1 characters and more, which are left
out of account.
-/

namespace Asm6502

/-- A place in the source text. -/
structure Position where
  /-- The line, counted from one. -/
  line : Nat
  /-- The column, counted from one in characters. -/
  column : Nat
  deriving DecidableEq, Repr

/-- A place as messages show it. -/
def Position.display (position : Position) : String :=
  "line " ++ Text.decimal position.line ++ ", column " ++ Text.decimal position.column

/-- A line of text with the number that positions on it carry. -/
structure SourceLine where
  /-- The line number. -/
  number : Nat
  /-- The characters of the line, without its ending. -/
  text : String
  deriving DecidableEq, Repr

namespace Source

/-- The characters without one carriage return at the end, if there is one. -/
def dropReturn (cs : List Char) : List Char := if cs.getLast? = some '\r' then cs.dropLast else cs

/-- The lines of a text: a line ends in a newline, or in a carriage return and a newline. What
stands after the last newline is a line unless it is empty. -/
def lineTexts (cs : List Char) : List (List Char) :=
  let pieces := cs.splitOn '\n'
  pieces.dropLast.map dropReturn ++ (pieces.getLast?.toList.filter (!·.isEmpty))

/-- Lines numbered from one. -/
def number (texts : List (List Char)) : List SourceLine :=
  (texts.zipIdx 1).map fun (text, n) => ⟨n, String.ofList text⟩

/-- The numbered lines of a source text. -/
def lines (source : String) : List SourceLine := number (lineTexts source.toList)

/-- The characters of `cs` that lie within its first `offset` bytes in UTF-8: their number, or
none if a character straddles the end of those bytes or the text is shorter. -/
def charsWithin? : Nat → List Char → Option Nat
  | 0, _ => some 0
  | _ + 1, [] => none
  | offset + 1, c :: cs =>
    if c.utf8Size ≤ offset + 1 then (charsWithin? (offset + 1 - c.utf8Size) cs).map (· + 1)
    else none

/-- The largest column. -/
def lastColumn : Nat := 0xFFFFFFFF

/-- The column of the character at a byte offset; an offset that is not the start of a character
counts as the end of the line. -/
def column (line : String) (offset : Nat) : Nat :=
  min ((charsWithin? offset line.toList).getD line.length + 1) lastColumn

@[simp] theorem lineTexts_nil : lineTexts [] = [] := rfl

/-- Within the bytes of some characters lie these characters. -/
theorem charsWithin?_append (front rest : List Char) :
    charsWithin? (String.ofList front).utf8ByteSize (front ++ rest) = some front.length := by
  induction front with
  | nil => cases rest <;> rfl
  | cons c front ih =>
    obtain ⟨size, positive⟩ := Nat.exists_eq_succ_of_ne_zero (Nat.ne_of_gt c.utf8Size_pos)
    rw [String.ofList_cons, String.utf8ByteSize_append, String.utf8ByteSize_singleton,
      List.cons_append, positive, Nat.succ_add, charsWithin?, positive, if_pos (by omega),
      Nat.succ_sub_succ, Nat.add_sub_cancel_left, ih]
    rfl

/-- The character after some characters has the column after theirs. -/
theorem column_append (front rest : String) :
    column (front ++ rest) front.utf8ByteSize = min (front.length + 1) lastColumn := by
  have within := charsWithin?_append front.toList rest.toList
  rw [String.ofList_toList] at within
  rw [column, String.toList_append, within, Option.getD_some, String.length_toList]

end Source

end Asm6502
