import Asm6502.Proofs.Instruction
import Mathlib.Data.Int.ModEq

/-!
# Where branches go

A branch adds its operand byte, as a signed number, to the address of the instruction after it, and
the sum wraps at the end of the address space (`Branch.Leads`). The assembler looks at the distance
to the target over the integers, so that it makes no use of the wrapping: a target is taken to be
reached if and only if some operand byte leads to it without leaving the address space
(`Branch.reaches_iff_exists`). This holds at the end of the address space too, where the instruction
after the branch would stand at `$10000` or `$10001`.
-/

namespace Asm6502.Branch

/-- The number that an operand byte adds: the byte read as a signed number. -/
def displacement (byte : UInt8) : Int := byte.toInt8.toInt

/-- The sum that a branch at `source` with the given operand byte makes. -/
def landing (source : UInt16) (byte : UInt8) : Int := source.toNat + 2 + displacement byte

/-- The branch goes to `target`: its sum is the target modulo 2^16. -/
def Leads (source : UInt16) (byte : UInt8) (target : UInt16) : Prop :=
  landing source byte % 65536 = target.toNat

/-- The sum of the branch is an address. -/
def StaysInside (source : UInt16) (byte : UInt8) : Prop :=
  0 ≤ landing source byte ∧ landing source byte ≤ 65535

theorem displacement_bounds (byte : UInt8) :
    -128 ≤ displacement byte ∧ displacement byte ≤ 127 := by
  have least := byte.toInt8.le_toInt
  have most := byte.toInt8.toInt_lt
  exact ⟨least, Int.le_of_lt_add_one most⟩

variable {source target : UInt16} {byte : UInt8}

theorem reaches_iff : reaches source target = true ↔
    -128 ≤ distance source target ∧ distance source target ≤ 127 := by
  rw [reaches, Bool.and_eq_true, decide_eq_true_eq, decide_eq_true_eq]

/-- The operand byte is the distance modulo 256, whether the target is reached or not. -/
theorem offset_modEq :
    ((offset source target).toNat : Int) ≡ distance source target [ZMOD 256] := by
  have positive : 0 ≤ distance source target % 256 := Int.emod_nonneg _ (by decide)
  have value : ((offset source target).toNat : Int) = distance source target % 256 := by
    rw [offset, UInt8.ofInt, UInt8.toNat_ofNat', Int.natCast_emod]
    show ((distance source target % 256).toNat : Int) % 256 = distance source target % 256
    rw [Int.toNat_of_nonneg positive, Int.emod_emod]
  rw [value]
  exact Int.mod_modEq _ _

/-- Inside the address space a byte leads to a target exactly if it adds the distance to it. -/
theorem leads_iff (inside : StaysInside source byte) :
    Leads source byte target ↔ displacement byte = distance source target := by
  have bound := target.toNat_lt
  obtain ⟨least, most⟩ := inside
  have small : landing source byte % 65536 = landing source byte :=
    Int.emod_eq_of_lt least (Int.lt_of_le_of_lt most (by decide))
  rw [Leads, small, landing, distance]
  omega

/-- A target that is reached is where the operand byte leads, inside the address space. -/
theorem leads_offset (reached : reaches source target = true) :
    StaysInside source (offset source target) ∧ Leads source (offset source target) target := by
  have added : displacement (offset source target) = distance source target := toInt_offset reached
  have sum : landing source (offset source target) = target.toNat := by
    rw [landing, added, distance]
    omega
  have bound := target.toNat_lt
  have inside : StaysInside source (offset source target) := by
    rw [StaysInside, sum]
    omega
  exact ⟨inside, (leads_iff inside).mpr added⟩

/-- **A target is reached if some byte leads to it** without leaving the address space. -/
theorem reaches_iff_exists : reaches source target = true ↔
    ∃ byte, StaysInside source byte ∧ Leads source byte target := by
  constructor
  · intro reached
    exact ⟨offset source target, leads_offset reached⟩
  · rintro ⟨byte, inside, leads⟩
    rw [reaches_iff, ← (leads_iff inside).mp leads]
    exact displacement_bounds byte

/-- **Branch displacements**: the operand byte is the distance from the instruction after the branch
modulo 256; the target is taken to be reached exactly if that distance is a signed byte; then the
branch goes to the target; and else no operand byte leads to it inside the address space. -/
theorem offset_exact (source target : UInt16) :
    ((offset source target).toNat : Int) ≡ target.toNat - source.toNat - 2 [ZMOD 256] ∧
      (reaches source target = true ↔
        -128 ≤ (target.toNat : Int) - (source.toNat + 2) ∧
          (target.toNat : Int) - (source.toNat + 2) ≤ 127) ∧
      (reaches source target = true → Leads source (offset source target) target) ∧
      (reaches source target = false →
        ∀ byte, StaysInside source byte → ¬ Leads source byte target) := by
  refine ⟨?_, reaches_iff, fun reached => (leads_offset reached).2, ?_⟩
  · rw [Int.sub_sub]
    exact offset_modEq
  · intro missed byte inside leads
    have reached : reaches source target = true := reaches_iff_exists.mpr ⟨byte, inside, leads⟩
    rw [missed] at reached
    cases reached

/-- A branch at `$FFFF` goes back to `$FF81`, which is as far as it can go; one at `$FFFE` does not
reach address zero, although the next address after the branch would wrap to it. -/
theorem offset_exact_endOfMemory :
    (reaches 0xFFFF 0xFF81 = true ∧ Leads 0xFFFF (offset 0xFFFF 0xFF81) 0xFF81) ∧
      (reaches 0xFFFE 0 = false ∧ ∀ byte, StaysInside 0xFFFE byte → ¬ Leads 0xFFFE byte 0) := by
  obtain ⟨-, -, leads, -⟩ := offset_exact 0xFFFF 0xFF81
  obtain ⟨-, -, -, missed⟩ := offset_exact 0xFFFE 0
  exact ⟨⟨rfl, leads rfl⟩, rfl, missed rfl⟩

end Asm6502.Branch
