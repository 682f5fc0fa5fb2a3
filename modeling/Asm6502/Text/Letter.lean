/-!
# Letter case

The assembly language ignores the case of the letters `a` to `z`. Every word is compared in upper
case; other characters keep their case.
-/

namespace Asm6502.Text

/-- The text with the letters `a` to `z` in upper case. -/
def upper (s : String) : String := String.ofList (s.toList.map Char.toUpper)

@[simp] theorem toList_upper (s : String) : (upper s).toList = s.toList.map Char.toUpper := by
  simp [upper]

/-- `upper` on lists of characters. -/
def upperWord (cs : List Char) : String := String.ofList (cs.map Char.toUpper)

@[simp] theorem toList_upperWord (cs : List Char) :
    (upperWord cs).toList = cs.map Char.toUpper := by
  simp [upperWord]

end Asm6502.Text
