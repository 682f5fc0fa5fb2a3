import Asm6502.Directive

/-!
# Conditional blocks

Statements are assembled only while the chosen branch of every open block is the one they stand in.
The stack keeps, for each open block, whether the block around it was assembled.
-/

namespace Asm6502

/-- The test holds for a value. -/
def Test.check : Test → UInt16 → Bool
  | .holds, value | .ne, value => value != 0
  | .eq, value => value == 0
  | .gt, value => 0 < value
  | .ge, _ => true
  | .lt, value => 0x8000 ≤ value
  | .le, value => value == 0 || 0x8000 ≤ value

/-- The open blocks. -/
structure Conditions where
  /-- Statements are assembled. -/
  enabled : Bool := true
  /-- For each open block, the innermost first: statements were assembled before it. -/
  parents : List Bool := []
  deriving DecidableEq, Repr

namespace Conditions

/-- Statements are assembled around the innermost open block. -/
def outerEnabled (conditions : Conditions) : Bool := conditions.parents.head?.getD true

/-- The number of open blocks. -/
def depth (conditions : Conditions) : Nat := conditions.parents.length

/-- Open a block. In a disabled block it is disabled whatever its condition. -/
def enter (conditions : Conditions) (condition : Bool) : Conditions :=
  { enabled := conditions.enabled && condition
    parents := conditions.enabled :: conditions.parents }

/-- Turn to the other branch of the innermost block; nothing changes if no block is open. -/
def flip (conditions : Conditions) : Conditions :=
  match conditions.parents with
  | [] => conditions
  | parent :: _ => { conditions with enabled := parent && !conditions.enabled }

/-- Close the innermost block; nothing changes if no block is open. -/
def leave (conditions : Conditions) : Conditions :=
  match conditions.parents with
  | [] => conditions
  | parent :: outer => { enabled := parent, parents := outer }

/-- Closing a block that was just opened leads back. -/
@[simp] theorem leave_enter (conditions : Conditions) (condition : Bool) :
    (conditions.enter condition).leave = conditions := rfl

/-- Turning a block before closing it makes no difference. -/
@[simp] theorem leave_flip (conditions : Conditions) :
    conditions.flip.leave = conditions.leave := by
  obtain ⟨enabled, parents⟩ := conditions
  cases parents with
  | nil => rfl
  | cons parent outer => rfl

end Conditions

end Asm6502
