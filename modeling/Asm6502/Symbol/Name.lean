import Asm6502.Text.Letter
import Std.Data.TreeMap

/-!
# Names

A name of a label, a symbol or a macro is kept in upper case, so that spellings which differ only
in the case of the letters `a` to `z` are one name. Names are ordered by their characters.
-/

namespace Asm6502

/-- A name, in upper case. -/
structure Name where
  /-- The characters of the name. -/
  text : String
  deriving DecidableEq, Repr

namespace Name

/-- The name that a text spells. -/
def ofText (text : String) : Name := ⟨Text.upper text⟩

/-- A text spells the name. -/
def spelledBy (name : Name) (text : String) : Bool := name.text == Text.upper text

instance : Ord Name := ⟨fun a b => compare a.text b.text⟩

theorem compare_def (a b : Name) : compare a b = compare a.text b.text := rfl

instance : Std.TransOrd Name where
  eq_swap {a b} := by
    rw [compare_def, compare_def]
    exact Std.OrientedCmp.eq_swap
  isLE_trans {a b c} hab hbc := by
    rw [compare_def] at hab hbc ⊢
    exact Std.TransCmp.isLE_trans hab hbc

instance : Std.LawfulEqOrd Name where
  eq_of_compare {a b} h := by
    rw [compare_def] at h
    have h' : a.text = b.text := Std.LawfulEqCmp.eq_of_compare h
    cases a
    cases b
    simp_all
  compare_self {a} := by
    rw [compare_def]
    exact Std.ReflCmp.compare_self

end Name

end Asm6502
