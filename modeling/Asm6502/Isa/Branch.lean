/-!
# Branch distances

A branch reaches its target by a signed byte, counted from the instruction after the branch.
-/

namespace Asm6502.Branch

/-- The distance from the instruction after a branch at `source` to `target`. -/
def distance (source target : UInt16) : Int := target.toNat - (source.toNat + 2)

/-- The operand byte of a branch: the distance modulo 256. -/
def offset (source target : UInt16) : UInt8 := UInt8.ofInt (distance source target)

/-- A branch from `source` reaches `target`. -/
def reaches (source target : UInt16) : Bool :=
  -128 ≤ distance source target && distance source target ≤ 127

end Asm6502.Branch
