import Asm6502.Assembly.Data
import Asm6502.Symbol.Name
import Mathlib.Algebra.Group.Nat.Defs

/-!
# Texts in the order of their bytes

Texts are compared character by character, and so are names. In UTF-8 this is the order of their
bytes (`textBytes_lt_textBytes`): a code is written as a first byte, which tells how many bytes
follow, and as its last digits in base 64 (`utf8EncodeChar_eq`). Of two codes the smaller one has
the smaller first byte, or else as many digits and a smaller one where they first differ.
-/

namespace Asm6502

namespace Text

/-! ### Bytes of characters -/

/-- The number of continuation bytes of a code in UTF-8. -/
def continuations (code : Nat) : Nat :=
  if code ≤ 0x7F then 0 else if code ≤ 0x7FF then 1 else if code ≤ 0xFFFF then 2 else 3

/-- The mark in the first byte of a code with `count` continuation bytes. -/
def leadMark : (count : Nat) → Nat
  | 0 => 0
  | 1 => 0xC0
  | 2 => 0xE0
  | _ => 0xF0

/-- The first byte of a code. -/
def lead (code : Nat) : Nat := code / 64 ^ continuations code + leadMark (continuations code)

/-- The last `count` digits of a code in base 64, as continuation bytes. -/
def continuation (code : Nat) : (count : Nat) → List UInt8
  | 0 => []
  | count + 1 => UInt8.ofNat (code / 64 ^ count % 64 + 0x80) :: continuation code count

/-- A code has up to three continuation bytes, as its size tells. -/
theorem continuations_cases (code : Nat) :
    (continuations code = 0 ∧ lead code = code ∧ code ≤ 0x7F) ∨
    (continuations code = 1 ∧ lead code = code / 64 + 0xC0 ∧ 0x7F < code ∧ code ≤ 0x7FF) ∨
    (continuations code = 2 ∧ lead code = code / 4096 + 0xE0 ∧ 0x7FF < code ∧ code ≤ 0xFFFF) ∨
    (continuations code = 3 ∧ lead code = code / 262144 + 0xF0 ∧ 0xFFFF < code) := by
  unfold lead
  by_cases first : code ≤ 0x7F
  · have count : continuations code = 0 := by rw [continuations, if_pos first]
    exact .inl ⟨count, by simp [count, leadMark], first⟩
  by_cases second : code ≤ 0x7FF
  · have count : continuations code = 1 := by rw [continuations, if_neg first, if_pos second]
    exact .inr (.inl ⟨count, by simp [count, leadMark], Nat.lt_of_not_le first, second⟩)
  by_cases third : code ≤ 0xFFFF
  · have count : continuations code = 2 := by
      rw [continuations, if_neg first, if_neg second, if_pos third]
    exact .inr (.inr (.inl ⟨count, by simp [count, leadMark], Nat.lt_of_not_le second, third⟩))
  · have count : continuations code = 3 := by
      rw [continuations, if_neg first, if_neg second, if_neg third]
    exact .inr (.inr (.inr ⟨count, by simp [count, leadMark], Nat.lt_of_not_le third⟩))

theorem codePoint_lt (c : Char) : c.toNat < 0x110000 := by
  rcases c.valid with low | high
  · exact Nat.lt_trans low (by decide)
  · exact high.2

theorem lead_lt (c : Char) : lead c.toNat < 256 := by
  have bound := codePoint_lt c
  rcases continuations_cases c.toNat with ⟨-, first, most⟩ | ⟨-, first, -, most⟩ |
    ⟨-, first, -, most⟩ | ⟨-, first, -⟩ <;> omega

/-- A character is written as the first byte of its code and the continuation bytes. -/
theorem utf8EncodeChar_eq (c : Char) :
    String.utf8EncodeChar c =
      UInt8.ofNat (lead c.toNat) :: continuation c.toNat (continuations c.toNat) := by
  have bound : c.val.toNat < 0x110000 := codePoint_lt c
  have whole {n m : Nat} (small : n < m) : n % m = n := Nat.mod_eq_of_lt small
  rw [Char.toNat, String.utf8EncodeChar]
  rcases continuations_cases c.val.toNat with ⟨count, first, most⟩ | ⟨count, first, least, most⟩ |
    ⟨count, first, least, most⟩ | ⟨count, first, least⟩ <;> rw [count, first]
  · rw [if_pos most]
    rfl
  · rw [if_neg (by omega), if_pos most, whole (n := c.val.toNat / 64) (by omega)]
    simp [continuation]
  · rw [if_neg (by omega), if_neg (by omega), if_pos most,
      whole (n := c.val.toNat / 4096) (by omega)]
    simp [continuation]
  · rw [if_neg (by omega), if_neg (by omega), if_neg (by omega),
      whole (n := c.val.toNat / 262144) (by omega)]
    simp [continuation]

/-! ### The order of bytes -/

theorem ofNat_cons_lt_cons {a b : Nat} (small : a < 256) (small' : b < 256)
    {bytes bytes' : List UInt8} (less : a < b ∨ a = b ∧ bytes < bytes') :
    UInt8.ofNat a :: bytes < UInt8.ofNat b :: bytes' := by
  rw [List.cons_lt_cons_iff]
  rcases less with less | ⟨rfl, rest⟩
  · exact .inl ((UInt8.ofNat_lt_iff_lt small small').mpr less)
  · exact .inr ⟨rfl, rest⟩

/-- Codes that are the same up to their last digits are in the order of these. -/
theorem continuation_lt {code code' : Nat} (less : code < code') (count : Nat)
    (same : code / 64 ^ count = code' / 64 ^ count) (rest rest' : List UInt8) :
    continuation code count ++ rest < continuation code' count ++ rest' := by
  induction count with
  | zero =>
    rw [Nat.pow_zero, Nat.div_one, Nat.div_one] at same
    omega
  | succ count ih =>
    have split (n : Nat) : n / 64 ^ (count + 1) = n / 64 ^ count / 64 := by
      rw [Nat.pow_succ, Nat.div_div_eq_div_mul]
    rw [split, split] at same
    have le : code / 64 ^ count ≤ code' / 64 ^ count := Nat.div_le_div_right (Nat.le_of_lt less)
    apply ofNat_cons_lt_cons (by omega) (by omega)
    rcases Nat.lt_or_eq_of_le le with smaller | equal
    · exact .inl (by omega)
    · exact .inr ⟨by rw [equal], ih equal⟩

/-- A smaller code has a smaller first byte, or the same first byte before as many others. -/
theorem lead_lt_or_eq {code code' : Nat} (less : code < code') :
    lead code < lead code' ∨
      lead code = lead code' ∧ continuations code = continuations code' ∧
        code / 64 ^ continuations code = code' / 64 ^ continuations code := by
  rcases continuations_cases code with ⟨count, first, most⟩ | ⟨count, first, least, most⟩ |
    ⟨count, first, least, most⟩ | ⟨count, first, least⟩ <;>
  rcases continuations_cases code' with ⟨count', first', most'⟩ | ⟨count', first', least', most'⟩ |
    ⟨count', first', least', most'⟩ | ⟨count', first', least'⟩ <;>
  rw [first, first', count, count'] <;> omega

/-- The bytes of a smaller character come first, whatever follows. -/
theorem utf8EncodeChar_append_lt {c d : Char} (less : c < d) (rest rest' : List UInt8) :
    String.utf8EncodeChar c ++ rest < String.utf8EncodeChar d ++ rest' := by
  have codes : c.toNat < d.toNat := less
  rw [utf8EncodeChar_eq, utf8EncodeChar_eq, List.cons_append, List.cons_append]
  apply ofNat_cons_lt_cons (lead_lt c) (lead_lt d)
  rcases lead_lt_or_eq codes with smaller | ⟨first, count, same⟩
  · exact .inl smaller
  · rw [← count]
    exact .inr ⟨first, continuation_lt codes _ same rest rest'⟩

theorem flatMap_utf8EncodeChar_lt {cs ds : List Char} (less : cs < ds) :
    cs.flatMap String.utf8EncodeChar < ds.flatMap String.utf8EncodeChar := by
  induction cs generalizing ds with
  | nil =>
    cases ds with
    | nil => cases less
    | cons d ds =>
      rw [List.flatMap_cons, utf8EncodeChar_eq]
      exact List.nil_lt_cons _ _
  | cons c cs ih =>
    cases ds with
    | nil => cases less
    | cons d ds =>
      rw [List.flatMap_cons, List.flatMap_cons]
      rcases List.cons_lt_cons_iff.mp less with smaller | ⟨rfl, rest⟩
      · exact utf8EncodeChar_append_lt smaller _ _
      · exact List.append_left_lt (ih rest)

end Text

/-- **Texts are in the order of their bytes**. -/
theorem textBytes_lt_textBytes {a b : String} (less : a < b) : textBytes a < textBytes b :=
  Text.flatMap_utf8EncodeChar_lt (String.lt_iff.mp less)

/-- So are names. -/
theorem Name.textBytes_lt {a b : Name} (less : compare a b = .lt) :
    textBytes a.text < textBytes b.text :=
  textBytes_lt_textBytes (compareOfLessAndEq_eq_lt.mp less)

end Asm6502
