import Asm6502.Proofs.Definition
import Asm6502.Proofs.Evaluation
import Mathlib.Algebra.Group.Int.Defs

/-!
# Exact values

The value of an expression is told here over the integers, by a function that passes every sum,
difference, product and character code through a wrapping of the caller's choice (`valueOver`).
Without wrapping it is the exact value; with the remainder modulo 2^16 it is the value of the tree
in 16 bits. An evaluation gives the latter (`toNat_value_evaluate`), and for an expression without
quotients and selectors that is the remainder of the former (`wordValue_of_isPolynomial`): wrapping
early or late makes no difference to sums, differences and products.

What an evaluation says besides the value is told by lists of what occurs in the tree: the names in
their order (`reads`) and all expressions within it (`parts`).
-/

namespace Asm6502

/-! ### Values over the integers -/

/-- What an operator does to integers, with its result wrapped. A quotient is rounded down, and
zero if the divisor is zero; it is never larger than the dividend, so that it needs no wrapping. -/
def Operator.over (wrap : Int → Int) : Operator → Int → Int → Int
  | .add, left, right => wrap (left + right)
  | .sub, left, right => wrap (left - right)
  | .mul, left, right => wrap (left * right)
  | .div, left, right => if right = 0 then 0 else left / right

/-- The selected byte of an integer of 16 bits. -/
def ByteSelect.over : ByteSelect → Int → Int
  | .low, value => value % 256
  | .high, value => value / 256

/-- What a name counts for: the value of its definition, and zero without one. -/
def SymbolTable.worth (table : SymbolTable) (name : Name) : Nat :=
  ((table.definition? name).map (·.value.toNat)).getD 0

/-- Nothing is known of a name: it has no definition and is not declared as defined elsewhere. -/
def SymbolTable.isUnknown (table : SymbolTable) (name : Name) : Bool :=
  !table.isDefined name && !table.externals.contains name

theorem SymbolTable.meaning_eq_undefined_iff {table : SymbolTable} {name : Name} :
    table.meaning name = .undefined ↔ table.isUnknown name = true := by
  unfold meaning isUnknown isDefined
  cases table.definition? name with
  | some definition => simp
  | none => cases table.externals.contains name <;> simp

namespace Expr

/-- The code of the first character of a text; zero if there is none. -/
def firstCode (text : String) : Nat := (text.toList.head?.map Char.toNat).getD 0

/-- The value of an expression over the integers, with `wrap` applied wherever it may leave 16
bits. -/
def valueOver (wrap : Int → Int) (symbols : SymbolTable) (here : UInt16) : Expr → Int
  | .literal value => value.toNat
  | .symbol name => symbols.worth name
  | .here => here.toNat
  | .quoted text => wrap (firstCode text)
  | .binary op left right =>
    op.over wrap (left.valueOver wrap symbols here) (right.valueOver wrap symbols here)
  | .select part inner => part.over (inner.valueOver wrap symbols here)

/-- The value of an expression over the integers. -/
def exactValue (symbols : SymbolTable) (here : UInt16) (expr : Expr) : Int :=
  expr.valueOver id symbols here

/-- The value of an expression in which every operation is done in 16 bits. -/
def wordValue (symbols : SymbolTable) (here : UInt16) (expr : Expr) : Int :=
  expr.valueOver (· % 2 ^ 16) symbols here

/-- No quotient is taken and no byte is selected. -/
def isPolynomial : Expr → Bool
  | .literal _ | .symbol _ | .here | .quoted _ => true
  | .binary op left right => op != .div && left.isPolynomial && right.isPolynomial
  | .select _ _ => false

/-- The expression and all expressions within it. -/
def parts : Expr → List Expr
  | .binary op left right => .binary op left right :: (left.parts ++ right.parts)
  | .select part inner => .select part inner :: inner.parts
  | leaf => [leaf]

end Expr

/-! ### Words -/

theorem Operator.toNat_apply (op : Operator) (left right : UInt16) :
    ((op.apply left right).toNat : Int) = op.over (· % 2 ^ 16) left.toNat right.toNat := by
  have small := right.toNat_lt
  cases op with
  | add =>
    show ((left + right).toNat : Int) = _
    rw [UInt16.toNat_add]
    rfl
  | sub =>
    show ((left - right).toNat : Int) = (left.toNat - right.toNat) % 2 ^ 16
    rw [UInt16.toNat_sub]
    omega
  | mul =>
    show ((left * right).toNat : Int) = _
    rw [UInt16.toNat_mul]
    rfl
  | div =>
    show ((left / right).toNat : Int) = if (right.toNat : Int) = 0 then 0 else _
    rw [UInt16.toNat_div]
    split
    · rename_i zero
      rw [Int.natCast_eq_zero.mp zero, Nat.div_zero]
      rfl
    · rfl

theorem ByteSelect.toNat_apply (part : ByteSelect) (value : UInt16) :
    ((part.apply value).toNat : Int) = part.over value.toNat := by
  cases part with
  | low =>
    have masked : (value &&& 0xFF).toNat = value.toNat % 256 := by
      rw [UInt16.toNat_and]
      exact Nat.and_two_pow_sub_one_eq_mod value.toNat 8
    show ((value &&& 0xFF).toNat : Int) = value.toNat % 256
    rw [masked]
    rfl
  | high =>
    have shifted : (value >>> 8).toNat = value.toNat / 256 := by
      simp [Nat.shiftRight_eq_div_pow]
    show ((value >>> 8).toNat : Int) = value.toNat / 256
    rw [shifted]
    rfl

/-- Sums, differences and products of remainders have the remainder of those of the numbers. -/
theorem Operator.over_emod {op : Operator} (ring : op ≠ .div) (left right : Int) :
    op.over (· % 2 ^ 16) (left % 2 ^ 16) (right % 2 ^ 16) = op.over id left right % 2 ^ 16 := by
  cases op with
  | add => exact (Int.add_emod left right _).symm
  | sub => exact (Int.sub_emod left right _).symm
  | mul => exact (Int.mul_emod left right _).symm
  | div => exact absurd rfl ring

theorem natCast_emod_of_word (value : UInt16) : (value.toNat : Int) % 2 ^ 16 = value.toNat := by
  have small := value.toNat_lt
  omega

/-! ### Lists without repetitions -/

/-- What is dropped from a list is dropped from its items without repetitions. -/
theorem eraseDups_filter {α : Type} [BEq α] [LawfulBEq α] (p : α → Bool) (items : List α) :
    (items.filter p).eraseDups = items.eraseDups.filter p := by
  cases items with
  | nil => rfl
  | cons item items =>
    have rest := eraseDups_filter p (items.filter (!· == item))
    rw [List.filter_filter] at rest
    rw [List.eraseDups_cons]
    by_cases kept : p item = true
    · rw [List.filter_cons_of_pos kept, List.filter_cons_of_pos kept, List.eraseDups_cons,
        List.filter_filter, ← rest]
      simp only [Bool.and_comm]
    · -- `item` is not among what is kept
      rw [List.filter_cons_of_neg kept, List.filter_cons_of_neg kept, ← rest]
      congr 1
      apply List.filter_congr
      intro other _
      by_cases same : other = item
      · subst same
        simp [kept]
      · simp [same]
termination_by items.length
decreasing_by exact Nat.lt_succ_of_le (List.length_filter_le _ _)

/-- The second of two lists adds the items that the first does not have. -/
theorem eraseDups_append_eq {α : Type} [BEq α] [LawfulBEq α] (first second : List α) :
    (first ++ second).eraseDups =
      first.eraseDups ++ second.eraseDups.filter (!first.eraseDups.contains ·) := by
  rw [List.eraseDups_append, List.removeAll, eraseDups_filter]
  congr 2
  funext item
  simp

namespace Expr

variable {symbols : SymbolTable} {here : UInt16}

/-! ### Values -/

theorem toNat_quotedValue (text : String) :
    ((quotedValue text).toNat : Int) = (firstCode text : Int) % 2 ^ 16 := by
  unfold quotedValue firstCode
  cases text.toList with
  | nil => rfl
  | cons c cs =>
    show ((UInt16.ofNat c.toNat).toNat : Int) = (c.toNat : Int) % 2 ^ 16
    rw [UInt16.toNat_ofNat']
    rfl

theorem toNat_value_symbol (symbols : SymbolTable) (here : UInt16) (name : Name) :
    ((Expr.symbol name).evaluate symbols here).value.toNat = symbols.worth name := by
  unfold SymbolTable.worth
  simp only [evaluate, SymbolTable.meaning]
  cases symbols.definition? name with
  | some definition => rfl
  | none => cases symbols.externals.contains name <;> rfl

/-- **An evaluation gives the value of the tree in 16 bits.** -/
theorem toNat_value_evaluate (expr : Expr) :
    ((expr.evaluate symbols here).value.toNat : Int) = expr.wordValue symbols here := by
  unfold wordValue
  induction expr with
  | literal value => rfl
  | here => rfl
  | quoted text => exact toNat_quotedValue text
  | symbol name => exact congrArg Nat.cast (toNat_value_symbol symbols here name)
  | select part inner ih =>
    show ((part.apply (inner.evaluate symbols here).value).toNat : Int) = part.over _
    rw [part.toNat_apply, ih]
  | binary op left right ihl ihr =>
    show ((op.apply _ _).toNat : Int) = op.over _ _ _
    rw [op.toNat_apply, ihl, ihr]

/-- A result is zero exactly if the value of the tree in 16 bits is. -/
theorem value_evaluate_eq_zero_iff {expr : Expr} :
    (expr.evaluate symbols here).value = 0 ↔ expr.wordValue symbols here = 0 := by
  rw [← toNat_value_evaluate, Int.natCast_eq_zero, ← UInt16.toNat_inj]
  rfl

/-! ### Wrapping early or late -/

/-- **Sums, differences and products may be wrapped at the end**: without quotients and selectors,
the value in 16 bits is the remainder of the value over the integers. -/
theorem wordValue_of_isPolynomial {expr : Expr} (polynomial : expr.isPolynomial = true) :
    expr.wordValue symbols here = expr.exactValue symbols here % 2 ^ 16 := by
  unfold wordValue exactValue
  induction expr with
  | literal value => exact (natCast_emod_of_word value).symm
  | here => exact (natCast_emod_of_word here).symm
  | quoted text => rfl
  | symbol name =>
    show (symbols.worth name : Int) = symbols.worth name % 2 ^ 16
    rw [← toNat_value_symbol symbols here name, natCast_emod_of_word]
  | select part inner ih => cases polynomial
  | binary op left right ihl ihr =>
    simp only [isPolynomial, Bool.and_eq_true, bne_iff_ne] at polynomial
    obtain ⟨⟨ring, first⟩, second⟩ := polynomial
    show op.over _ _ _ = op.over id _ _ % 2 ^ 16
    rw [ihl first, ihr second, Operator.over_emod ring]

/-! ### What is missing -/

/-- The undefined names are those that are read and not known, each at its first use. -/
theorem undefined_evaluate (expr : Expr) :
    (expr.evaluate symbols here).undefined = (expr.reads.filter symbols.isUnknown).eraseDups := by
  induction expr with
  | literal value => rfl
  | here => rfl
  | quoted text => rfl
  | symbol name =>
    simp only [evaluate, reads]
    cases meaning : symbols.meaning name with
    | undefined =>
      rw [List.filter_cons_of_pos (SymbolTable.meaning_eq_undefined_iff.mp meaning)]
      rfl
    | _ =>
      have known : ¬ symbols.isUnknown name = true := by
        rw [← SymbolTable.meaning_eq_undefined_iff, meaning]
        exact fun same => by cases same
      rw [List.filter_cons_of_neg known]
      rfl
  | select part inner ih => exact ih
  | binary op left right ihl ihr =>
    simp only [evaluate, reads, ihl, ihr, List.filter_append, eraseDups_append_eq]

/-- A name that is defined elsewhere was used exactly if one that is read has no definition and is
declared so. -/
theorem external_evaluate_iff (expr : Expr) :
    (expr.evaluate symbols here).external = true ↔
      ∃ name ∈ expr.reads, symbols.definition? name = none ∧
        symbols.externals.contains name = true := by
  induction expr with
  | literal value => simp [evaluate, reads]
  | here => simp [evaluate, reads]
  | quoted text => simp [evaluate, reads]
  | symbol name =>
    simp only [reads, List.mem_singleton, exists_eq_left, evaluate,
      ← SymbolTable.meaning_eq_external_iff]
    cases symbols.meaning name <;> simp
  | select part inner ih => exact ih
  | binary op left right ihl ihr =>
    simp only [evaluate, Bool.or_eq_true, ihl, ihr, reads, List.mem_append, or_and_right,
      exists_or]

/-- A quotient by zero was taken exactly if there is one anywhere in the tree. -/
theorem divisionByZero_evaluate_iff (expr : Expr) :
    (expr.evaluate symbols here).divisionByZero = true ↔
      ∃ left right, .binary .div left right ∈ expr.parts ∧ right.wordValue symbols here = 0 := by
  induction expr with
  | literal value => simp [evaluate, parts]
  | here => simp [evaluate, parts]
  | quoted text => simp [evaluate, parts]
  | symbol name =>
    simp only [parts, List.mem_singleton, reduceCtorEq, false_and, exists_false, iff_false,
      evaluate]
    cases symbols.meaning name <;> simp
  | select part inner ih => simpa [evaluate, parts] using ih
  | binary op left right ihl ihr =>
    simp only [evaluate, Bool.or_eq_true, Bool.and_eq_true, beq_iff_eq, ihl, ihr,
      value_evaluate_eq_zero_iff, parts, List.mem_cons, List.mem_append, or_and_right, exists_or,
      Expr.binary.injEq]
    constructor
    · rintro ((within | within) | ⟨rfl, zero⟩)
      · exact .inr (.inl within)
      · exact .inr (.inr within)
      · exact .inl ⟨left, right, ⟨rfl, rfl, rfl⟩, zero⟩
    · rintro (⟨_, _, ⟨rfl, rfl, rfl⟩, zero⟩ | within | within)
      · exact .inr ⟨rfl, zero⟩
      · exact .inl (.inl within)
      · exact .inl (.inr within)

/-- An expression that does not move with the program has one evaluation everywhere. -/
theorem evaluate_of_not_referencesSymbol {expr : Expr} (fixed : expr.referencesSymbol = false)
    (symbols' : SymbolTable) (here' : UInt16) :
    expr.evaluate symbols' here' = expr.evaluate symbols here := by
  induction expr with
  | literal value => rfl
  | quoted text => rfl
  | here => cases fixed
  | symbol name => cases fixed
  | select part inner ih => simp only [evaluate, ih fixed]
  | binary op left right ihl ihr =>
    simp only [referencesSymbol, Bool.or_eq_false_iff] at fixed
    simp only [evaluate, ihl fixed.1, ihr fixed.2]

/-- **Evaluation is exact arithmetic modulo 2^16.** For any expression, symbols and location:

- Without quotients and selectors, the value is that over the integers, modulo 2^16.
- In general it is the value of the tree with every operation done in 16 bits.
- The undefined names are those that occur and are neither defined nor declared, each once, in the
  order of their first occurrence from left to right.
- `external` tells whether a name occurs that is declared as defined elsewhere and not defined.
- `divisionByZero` tells whether a quotient anywhere in the tree has a divisor of value zero.
- An expression without names and location counter has the same evaluation everywhere. -/
theorem evaluate_exact (symbols : SymbolTable) (here : UInt16) (expr : Expr) :
    let evaluation := expr.evaluate symbols here
    (expr.isPolynomial = true →
        (evaluation.value.toNat : Int) = expr.exactValue symbols here % 2 ^ 16) ∧
      (evaluation.value.toNat : Int) = expr.wordValue symbols here ∧
      evaluation.undefined = (expr.reads.filter symbols.isUnknown).eraseDups ∧
      (evaluation.external = true ↔
        ∃ name ∈ expr.reads, symbols.definition? name = none ∧
          symbols.externals.contains name = true) ∧
      (evaluation.divisionByZero = true ↔
        ∃ left right, .binary .div left right ∈ expr.parts ∧
          right.wordValue symbols here = 0) ∧
      (expr.referencesSymbol = false →
        ∀ symbols' here', expr.evaluate symbols' here' = evaluation) := by
  refine ⟨fun polynomial => ?_, toNat_value_evaluate expr, undefined_evaluate expr,
    external_evaluate_iff expr, divisionByZero_evaluate_iff expr, fun fixed symbols' here' => ?_⟩
  · rw [toNat_value_evaluate, wordValue_of_isPolynomial polynomial]
  · exact evaluate_of_not_referencesSymbol fixed symbols' here'

/-- A table in which `A` is 300. -/
def threeHundred : SymbolTable := SymbolTable.define {} ⟨"A"⟩ ⟨300, ⟨1, 1⟩⟩

/-- `0-(A*A)`. -/
def negativeSquare : Expr :=
  .binary .sub (.literal 0) (.binary .mul (.symbol ⟨"A"⟩) (.symbol ⟨"A"⟩))

/-- `(7/(1-1))+2`. -/
def constantQuotient : Expr :=
  .binary .add (.binary .div (.literal 7) (.binary .sub (.literal 1) (.literal 1))) (.literal 2)

/-- The product leaves 16 bits and the difference goes below zero; the quotient by zero is found in
any context. -/
theorem evaluate_exact_negativeSquare :
    (negativeSquare.isPolynomial = true ∧
        negativeSquare.exactValue threeHundred 0 = -90000 ∧
        ((negativeSquare.evaluate threeHundred 0).value.toNat : Int) = -90000 % 2 ^ 16) ∧
      constantQuotient.referencesSymbol = false ∧
      constantQuotient.evaluate threeHundred 0 = { value := 2, divisionByZero := true } ∧
      ∀ symbols here,
        constantQuotient.evaluate symbols here = constantQuotient.evaluate threeHundred 0 := by
  have exact : negativeSquare.exactValue threeHundred 0 = -90000 := by decide +kernel
  have value := (evaluate_exact threeHundred 0 negativeSquare).1 rfl
  have fixed := (evaluate_exact threeHundred 0 constantQuotient).2.2.2.2.2 rfl
  exact ⟨⟨rfl, exact, exact ▸ value⟩, rfl, by decide +kernel, fixed⟩

end Expr

end Asm6502
