import Asm6502.Proofs.ByteOrder
import Asm6502.Proofs.Uppercase

/-!
# Looking up mnemonics

A mnemonic is looked up by binary search, with the bytes of the word in upper case. Since the table
is in the order of bytes (`sorted_table`), the entries beyond the word are those after its own, and
halving the places can only end at this one (`bisect_eq`). Bytes and texts determine each other
(`textBytes_injective`), and putting letters in upper case is the same for both
(`textBytes_upper`), also where a text has characters of several bytes: none of these is a letter.
So the search finds what a search of the whole table finds (`find?_eq`).
-/

namespace Asm6502

/-! ### Bytes of texts -/

namespace Text

theorem high_of_mem_continuation {code count : Nat} {b : UInt8}
    (mem : b ∈ continuation code count) : 0x80 ≤ b.toNat := by
  induction count with
  | zero => cases mem
  | succ count ih =>
    rcases List.mem_cons.mp mem with rfl | mem
    · rw [UInt8.toNat_ofNat']
      omega
    · exact ih mem

/-- The bytes of a character beyond ASCII all have their top bit set. -/
theorem high_of_mem_utf8EncodeChar {c : Char} (wide : 0x7F < c.toNat) {b : UInt8}
    (mem : b ∈ String.utf8EncodeChar c) : 0x80 ≤ b.toNat := by
  rw [utf8EncodeChar_eq] at mem
  rcases List.mem_cons.mp mem with rfl | mem
  · have bound := lead_lt c
    rw [UInt8.toNat_ofNat', Nat.mod_eq_of_lt bound]
    rcases continuations_cases c.toNat with ⟨-, -, most⟩ | ⟨-, first, -⟩ | ⟨-, first, -⟩ |
      ⟨-, first, -⟩ <;> omega
  · exact high_of_mem_continuation mem

theorem upperByte_of_high {b : UInt8} (high : 0x80 ≤ b.toNat) : upperByte b = b := by
  refine if_neg fun letter => ?_
  have most : b.toNat ≤ 0x7A := letter.2
  omega

/-- A letter is one byte, and the bytes of other characters are no letters. -/
theorem utf8EncodeChar_toUpper (c : Char) :
    String.utf8EncodeChar c.toUpper = (String.utf8EncodeChar c).map upperByte := by
  rcases Nat.lt_or_ge 0x7F c.toNat with wide | narrow
  · have same : c.toUpper = c := by
      refine dif_neg fun letter => ?_
      have most : c.toNat ≤ 122 := letter.2
      omega
    have kept : (String.utf8EncodeChar c).map upperByte = (String.utf8EncodeChar c).map id :=
      List.map_congr_left fun b mem => upperByte_of_high (high_of_mem_utf8EncodeChar wide mem)
    rw [same, kept, List.map_id]
  · have ascii : ∀ n < 128, String.utf8EncodeChar (Char.ofNat n).toUpper =
        (String.utf8EncodeChar (Char.ofNat n)).map upperByte := by decide
    rw [← Char.ofNat_toNat c]
    exact ascii c.toNat (Nat.lt_succ_of_le narrow)

end Text

theorem textBytes_upper (text : String) :
    textBytes (Text.upper text) = (textBytes text).map upperByte := by
  rw [textBytes, Text.toList_upper, List.flatMap_map, textBytes, List.map_flatMap]
  exact congrArg text.toList.flatMap (funext Text.utf8EncodeChar_toUpper)

/-- Texts with the same bytes are the same. -/
theorem textBytes_injective {a b : String} (same : textBytes a = textBytes b) : a = b := by
  have apart {a b : String} (same : textBytes a = textBytes b) : ¬ a < b := by
    intro less
    have bytes := textBytes_lt_textBytes less
    rw [same] at bytes
    exact List.lt_irrefl _ bytes
  exact String.le_antisymm (String.not_lt.mp (apart same.symm)) (String.not_lt.mp (apart same))

namespace Opcode

/-! ### The order of the table -/

theorem sorted_table : table.Pairwise fun first second =>
    first.order (textBytes second.mnemonic) = .lt := by
  decide +kernel

theorem order_eq_iff {opcode : Opcode} {text : String} :
    opcode.order (textBytes text) = .eq ↔ opcode.mnemonic = text := by
  rw [order, Std.LawfulEqOrd.compare_eq_iff_eq]
  exact ⟨textBytes_injective, congrArg textBytes⟩

/-! ### Binary search -/

/-- A place is found if the places up to it are not beyond what is looked for and those after it
are. -/
theorem bisect_eq {beyond : Nat → Bool} {base size place : Nat} (least : base ≤ place)
    (most : place < base + size) (below : ∀ i ≤ place, beyond i = false)
    (above : ∀ i, place < i → i < base + size → beyond i = true) :
    bisect beyond base size = place := by
  fun_induction bisect beyond base size with
  | case1 base size single => omega
  | case2 base size several middle ih =>
    have before : place < base + size / 2 := by
      refine Nat.lt_of_not_le fun reached => ?_
      rw [below _ reached] at middle
      cases middle
    exact ih least (by omega) fun i after inside => above i after (by omega)
  | case3 base size several middle ih =>
    have reached : base + size / 2 ≤ place :=
      Nat.le_of_not_lt fun before => middle (above _ before (by omega))
    exact ih reached (by omega) fun i after inside => above i after (by omega)

/-- Of the entries of the table, those after the one at a place are beyond its mnemonic. -/
theorem beyond_eq {place : Nat} {opcode : Opcode} (listed : table[place]? = some opcode) {i : Nat}
    (inside : i < table.length) :
    table[i]?.any (·.order (textBytes opcode.mnemonic) == .gt) = decide (place < i) := by
  obtain ⟨bound, rfl⟩ := List.getElem?_eq_some_iff.mp listed
  have sorted := List.pairwise_iff_getElem.mp sorted_table
  rw [List.getElem?_eq_getElem inside, Option.any_some]
  rcases Nat.lt_trichotomy place i with after | rfl | before
  · have beyond : table[i].order (textBytes table[place].mnemonic) = .gt :=
      Std.OrientedCmp.gt_of_lt (sorted place i bound inside after)
    rw [beyond, decide_eq_true after]
    rfl
  · rw [order_eq_iff.mpr rfl, decide_eq_false (Nat.lt_irrefl _)]
    rfl
  · rw [sorted i place inside bound before, decide_eq_false (Nat.lt_asymm before)]
    rfl

variable {opcode : Opcode} {name : String}

/-- The search compares the mnemonics with the name in upper case. -/
theorem find?_def (name : String) :
    find? name =
      table[bisect (fun i => table[i]?.any (·.order (textBytes (Text.upper name)) == .gt)) 0
        table.length]?.filter (·.mnemonic == Text.upper name) := by
  have named (opcode : Opcode) : (opcode.order (textBytes (Text.upper name)) == .eq) =
      (opcode.mnemonic == Text.upper name) := by
    rw [Bool.eq_iff_iff, beq_iff_eq, beq_iff_eq, order_eq_iff]
  simp only [find?, ← textBytes_upper, named]

theorem find?_upper (name : String) : find? (Text.upper name) = find? name := by
  rw [find?_def, Text.upper_upper, ← find?_def]

/-- Every entry is found by its mnemonic. -/
theorem find?_of_mem (listed : opcode ∈ table) (named : opcode.mnemonic = Text.upper name) :
    find? name = some opcode := by
  obtain ⟨place, found⟩ := List.mem_iff_getElem?.mp listed
  obtain ⟨bound, -⟩ := List.getElem?_eq_some_iff.mp found
  have reached : bisect (fun i => table[i]?.any (·.order (textBytes opcode.mnemonic) == .gt)) 0
      table.length = place := by
    refine bisect_eq (Nat.zero_le _) (by omega) (fun i le => ?_) (fun i after inside => ?_)
    · rw [beyond_eq found (by omega), decide_eq_false (by omega)]
    · rw [beyond_eq found (by omega), decide_eq_true after]
  rw [find?_def, ← named, reached, found, Option.filter_some, beq_self_eq_true, if_pos rfl]

/-- **The binary search finds what a search of the whole table finds**: the entry that has the name
in upper case as its mnemonic. -/
theorem find?_eq (name : String) :
    find? name = table.find? (·.mnemonic == Text.upper name) := by
  cases found : table.find? (·.mnemonic == Text.upper name) with
  | none =>
    rw [find?_def, Option.filter_eq_none_iff]
    intro opcode listed
    exact List.find?_eq_none.mp found opcode (List.mem_of_getElem? listed)
  | some opcode =>
    have named : opcode.mnemonic = Text.upper name := by simpa using List.find?_some found
    exact find?_of_mem (List.mem_of_find?_eq_some found) named

end Opcode

end Asm6502
