import Asm6502.Macro.Call

/-!
# The parameters of macro bodies

The parameters in a line of a body are replaced in one pass from left to right. So the replacement
goes through the concatenation of texts, except where their ends make a parameter that neither text
has (`substituteChars_append`). No parameter overlaps another one, since `&` is not among the
characters after it: every line is a sequence of parameters with texts between them that have none
(`Parts.exists_written`), and it becomes the sequence of what these stand for, with the same texts
between them (`Parts.substituteChars_written`). What an argument holds is never looked at, nor what
it makes with the text around it.
-/

namespace Asm6502.Macro

/-- The characters that make a parameter after an `&`. -/
def parameterChars : List Char := "0123456789Xx".toList

/-- What the parameter with the given character stands for. -/
def meaning (arguments : List String) : Char → String
  | 'X' | 'x' => toString arguments.length
  | '0' => arguments[0]?.getD ""
  | c => arguments[c.toNat - '1'.toNat]?.getD ""

/-- The text has no parameter. -/
def Plain (text : List Char) : Prop := ∀ c ∈ parameterChars, ¬ ['&', c] <:+: text

/-- The end of one text and the start of another one make a parameter. -/
def MakeParameter (a b : List Char) : Prop :=
  a.getLast? = some '&' ∧ ∃ c ∈ parameterChars, b.head? = some c

theorem MakeParameter.cons {a b : List Char} (made : MakeParameter a b) (c : Char) :
    MakeParameter (c :: a) b :=
  ⟨by rw [List.getLast?_cons, made.1, Option.getD_some], made.2⟩

theorem ampersand_not_mem : '&' ∉ parameterChars := by decide

theorem not_makeParameter_of_head {a b : List Char} {c : Char} (next : b.head? = some c)
    (other : c ∉ parameterChars) : ¬ MakeParameter a b := by
  rintro ⟨-, d, listed, head⟩
  rw [next] at head
  cases head
  exact other listed

theorem plain_cons_iff {c : Char} {cs : List Char} :
    Plain (c :: cs) ↔ Plain cs ∧ ¬ MakeParameter [c] cs := by
  constructor
  · intro plain
    have rest : Plain cs := fun d listed inside =>
      plain d listed (inside.trans (List.suffix_cons c cs).isInfix)
    refine ⟨rest, ?_⟩
    rintro ⟨mark, d, listed, next⟩
    obtain rfl : c = '&' := Option.some.inj mark
    obtain ⟨ds, rfl⟩ := List.head?_eq_some_iff.mp next
    exact plain d listed ⟨[], ds, rfl⟩
  · rintro ⟨plain, kept⟩ d listed inside
    rcases List.infix_cons_iff.mp inside with ⟨rest, start⟩ | inside
    · cases start
      exact kept ⟨rfl, d, listed, rfl⟩
    · exact plain d listed inside

variable (arguments : List String)

/-! ### One parameter -/

theorem parameter?_of_mem {c : Char} (listed : c ∈ parameterChars) :
    parameter? arguments c = some (meaning arguments c).toList := by
  have count : some (Nat.toDigits 10 arguments.length) =
      some (toString arguments.length).toList := congrArg some String.toList_ofList.symm
  have split : parameterChars = "0123456789".toList ++ ['X', 'x'] := by decide
  rw [split, List.mem_append] at listed
  rcases listed with digit | letter
  · have one : c ∈ ['0', '1', '2', '3', '4', '5', '6', '7', '8', '9'] := digit
    simp only [List.mem_cons, List.not_mem_nil, or_false] at one
    rcases one with rfl | rfl | rfl | rfl | rfl | rfl | rfl | rfl | rfl | rfl <;> rfl
  · simp only [List.mem_cons, List.not_mem_nil, or_false] at letter
    rcases letter with rfl | rfl <;> exact count

theorem parameter?_of_not_mem {c : Char} (other : c ∉ parameterChars) :
    parameter? arguments c = none := by
  have digits : ∀ n < 58, 49 ≤ n → Char.ofNat n ∈ parameterChars := by decide
  have letter : ¬ (c = 'X' ∨ c = 'x') := by
    rintro (rfl | rfl) <;> exact other (by decide)
  have zero : c ≠ '0' := by
    rintro rfl
    exact other (by decide)
  have digit : ¬ ('1' ≤ c ∧ c ≤ '9') := by
    rintro ⟨least, most⟩
    have code : 49 ≤ c.toNat ∧ c.toNat ≤ 57 := ⟨least, most⟩
    rw [← Char.ofNat_toNat c] at other
    exact other (digits c.toNat (by omega) code.1)
  rw [parameter?, if_neg letter, if_neg zero, if_neg digit]

/-! ### Steps of the replacement -/

theorem substituteChars_parameter {c : Char} (listed : c ∈ parameterChars) (cs : List Char) :
    substituteChars arguments ('&' :: c :: cs) =
      (meaning arguments c).toList ++ substituteChars arguments cs := by
  rw [substituteChars, parameter?_of_mem arguments listed]

/-- A character that makes no parameter with the next one is kept. -/
theorem substituteChars_kept {c : Char} {cs : List Char} (kept : ¬ MakeParameter [c] cs) :
    substituteChars arguments (c :: cs) = c :: substituteChars arguments cs := by
  by_cases mark : c = '&'
  · subst mark
    cases cs with
    | nil => simp [substituteChars]
    | cons d cs =>
      have other : d ∉ parameterChars := fun listed => kept ⟨rfl, d, listed, rfl⟩
      rw [substituteChars, parameter?_of_not_mem arguments other]
  · rw [substituteChars]
    rintro d ds rfl
    exact absurd rfl mark

/-- **The replacement goes through concatenation**, except where a parameter is made. -/
theorem substituteChars_append {a b : List Char} (apart : ¬ MakeParameter a b) :
    substituteChars arguments (a ++ b) =
      substituteChars arguments a ++ substituteChars arguments b := by
  induction count : a.length using Nat.strongRecOn generalizing a with
  | ind count' ih =>
    cases a with
    | nil => rfl
    | cons c cs =>
      rw [List.length_cons] at count
      by_cases made : MakeParameter [c] cs
      · -- the pass goes on after the parameter
        obtain ⟨mark, d, listed, next⟩ := made
        obtain rfl : c = '&' := Option.some.inj mark
        obtain ⟨ds, rfl⟩ := List.head?_eq_some_iff.mp next
        rw [List.length_cons] at count
        have rest := ih ds.length (by omega) (fun made => apart ((made.cons d).cons '&')) rfl
        rw [List.cons_append, List.cons_append, substituteChars_parameter arguments listed, rest,
          substituteChars_parameter arguments listed, List.append_assoc]
      · have rest := ih cs.length (by omega) (fun made => apart (made.cons c)) rfl
        have kept : ¬ MakeParameter [c] (cs ++ b) := by
          rintro ⟨mark, d, listed, next⟩
          cases cs with
          | nil => exact apart ⟨mark, d, listed, next⟩
          | cons d' ds => exact made ⟨mark, d, listed, next⟩
        rw [List.cons_append, substituteChars_kept arguments kept, rest,
          substituteChars_kept arguments made, List.cons_append]

/-- A text without a parameter is kept. -/
theorem substituteChars_plain {text : List Char} (plain : Plain text) :
    substituteChars arguments text = text := by
  induction text with
  | nil => rfl
  | cons c cs ih =>
    obtain ⟨rest, kept⟩ := plain_cons_iff.mp plain
    rw [substituteChars_kept arguments kept, ih rest]

/-! ### Lines in parts -/

/-- A line in parts: a text before the first parameter, and the character of each parameter with the
text after it. -/
structure Parts where
  /-- The text before the first parameter. -/
  lead : List Char
  /-- The parameters, each with the text after it. -/
  rest : List (Char × List Char)

namespace Parts

/-- The characters make parameters, and the texts between them have none. -/
structure Valid (parts : Parts) : Prop where
  lead : Plain parts.lead
  rest : ∀ part ∈ parts.rest, part.1 ∈ parameterChars ∧ Plain part.2

/-- The line as it stands in the body. -/
def written (parts : Parts) : List Char :=
  parts.lead ++ parts.rest.flatMap fun part => '&' :: part.1 :: part.2

/-- The line with what each parameter stands for in its place. -/
def replaced (parts : Parts) : List Char :=
  parts.lead ++ parts.rest.flatMap fun part => (meaning arguments part.1).toList ++ part.2

/-- Every line is in parts. -/
theorem exists_written (line : List Char) :
    ∃ parts : Parts, parts.Valid ∧ line = parts.written := by
  induction count : line.length using Nat.strongRecOn generalizing line with
  | ind count' ih =>
    by_cases plain : Plain line
    · refine ⟨⟨line, []⟩, ⟨plain, fun part mem => (by cases mem)⟩, ?_⟩
      simp [written]
    · -- a parameter parts the line in two shorter ones
      simp only [Plain, Classical.not_forall, Classical.not_not] at plain
      obtain ⟨c, listed, before, after, split⟩ := plain
      have lengths : line.length = before.length + after.length + 2 := by
        rw [← split]
        simp only [List.length_append, List.length_cons, List.length_nil]
        omega
      obtain ⟨first, valid, rfl⟩ := ih before.length (by omega) before rfl
      obtain ⟨second, valid', rfl⟩ := ih after.length (by omega) after rfl
      refine ⟨⟨first.lead, first.rest ++ (c, second.lead) :: second.rest⟩, ⟨valid.lead, ?_⟩, ?_⟩
      · intro part mem
        rcases List.mem_append.mp mem with mem | mem
        · exact valid.rest part mem
        · rcases List.mem_cons.mp mem with rfl | mem
          · exact ⟨listed, valid'.lead⟩
          · exact valid'.rest part mem
      · rw [← split]
        simp [written]

/-- A text is kept before parameters: it ends where the `&` of the next one stands. -/
theorem substituteChars_lead {text : List Char} (plain : Plain text)
    (rest : List (Char × List Char)) :
    substituteChars arguments (text ++ rest.flatMap fun part => '&' :: part.1 :: part.2) =
      text ++ substituteChars arguments (rest.flatMap fun part => '&' :: part.1 :: part.2) := by
  have apart : ¬ MakeParameter text (rest.flatMap fun part => '&' :: part.1 :: part.2) := by
    cases rest with
    | nil =>
      rintro ⟨-, c, listed, next⟩
      cases next
    | cons part rest => exact not_makeParameter_of_head rfl ampersand_not_mem
  rw [substituteChars_append arguments apart, substituteChars_plain arguments plain]

/-- **Each parameter is replaced by what it stands for**, and the texts between them are kept. -/
theorem substituteChars_written {parts : Parts} (valid : parts.Valid) :
    substituteChars arguments parts.written = parts.replaced arguments := by
  obtain ⟨lead, rest⟩ := parts
  obtain ⟨plain, listed⟩ := valid
  rw [written, substituteChars_lead arguments plain, replaced]
  congr 1
  induction rest with
  | nil => rfl
  | cons part rest ih =>
    obtain ⟨⟨char, text⟩, others⟩ := List.forall_mem_cons.mp listed
    rw [List.flatMap_cons, List.cons_append, List.cons_append,
      substituteChars_parameter arguments char, substituteChars_lead arguments text,
      ih plain others, List.flatMap_cons, List.append_assoc]

end Parts

/-! ### Texts -/

theorem substitute_append {a b : String} (apart : ¬ MakeParameter a.toList b.toList) :
    substitute arguments (a ++ b) = substitute arguments a ++ substitute arguments b := by
  rw [← String.toList_inj, String.toList_append, toList_substitute, toList_substitute,
    toList_substitute, String.toList_append, substituteChars_append arguments apart]

theorem substitute_parameter {c : Char} (listed : c ∈ parameterChars) :
    substitute arguments (String.ofList ['&', c]) = meaning arguments c := by
  rw [← String.toList_inj, toList_substitute, String.toList_ofList,
    substituteChars_parameter arguments listed]
  exact List.append_nil _

/-- A parameter stands by itself wherever it is: neither an `&` before it nor a character after it
makes another one with it. -/
theorem substitute_around {c : Char} (listed : c ∈ parameterChars) (before after : String) :
    substitute arguments (before ++ String.ofList ['&', c] ++ after) =
      substitute arguments before ++ meaning arguments c ++ substitute arguments after := by
  have left : ¬ MakeParameter before.toList (String.ofList ['&', c]).toList := by
    rw [String.toList_ofList]
    exact not_makeParameter_of_head rfl ampersand_not_mem
  have right : ¬ MakeParameter (before ++ String.ofList ['&', c]).toList after.toList := by
    rintro ⟨mark, -⟩
    rw [String.toList_append, String.toList_ofList, List.getLast?_append] at mark
    obtain rfl : c = '&' := Option.some.inj mark
    exact ampersand_not_mem listed
  rw [substitute_append arguments right, substitute_append arguments left,
    substitute_parameter arguments listed]

theorem meaning_digitChar {n : Nat} (least : 1 ≤ n) (most : n ≤ 9) :
    meaning arguments (Nat.digitChar n) = arguments[n - 1]?.getD "" := by
  obtain rfl | rfl | rfl | rfl | rfl | rfl | rfl | rfl | rfl :
      n = 1 ∨ n = 2 ∨ n = 3 ∨ n = 4 ∨ n = 5 ∨ n = 6 ∨ n = 7 ∨ n = 8 ∨ n = 9 := by omega
  all_goals rfl

theorem substitute_number {n : Nat} (least : 1 ≤ n) (most : n ≤ 9) :
    substitute arguments ("&" ++ toString n) = arguments[n - 1]?.getD "" := by
  have digits : ∀ n < 10, Nat.digitChar n ∈ parameterChars := by decide
  have text : "&" ++ toString n = String.ofList ['&', Nat.digitChar n] := by
    have numeral : (toString n).toList = Nat.toDigits 10 n := String.toList_ofList
    rw [← String.toList_inj, String.toList_append, numeral, Nat.toDigits_of_lt_base (by omega)]
    exact String.toList_ofList.symm
  rw [text, substitute_parameter arguments (digits n (by omega)),
    meaning_digitChar arguments least most]

/-- **Parameters are replaced in one pass.** The replacement goes through the concatenation of texts
that make no parameter where they meet; `&0` becomes the first argument, `&1` to `&9` the argument
with the number, or nothing, and `&X` and `&x` the number of arguments; a text without a parameter
is kept; what a parameter stands for is put in as it is, whatever it is and whatever is around it;
and so every line becomes its own texts with what its parameters stand for between them. -/
theorem substitute_onePass (arguments : List String) :
    (∀ a b : String, ¬ MakeParameter a.toList b.toList →
      substitute arguments (a ++ b) = substitute arguments a ++ substitute arguments b) ∧
    substitute arguments "&0" = arguments[0]?.getD "" ∧
    (∀ n, 1 ≤ n → n ≤ 9 →
      substitute arguments ("&" ++ toString n) = arguments[n - 1]?.getD "") ∧
    substitute arguments "&X" = toString arguments.length ∧
    substitute arguments "&x" = toString arguments.length ∧
    (∀ text : String, Plain text.toList → substitute arguments text = text) ∧
    (∀ c ∈ parameterChars, ∀ before after : String,
      substitute arguments (before ++ String.ofList ['&', c] ++ after) =
        substitute arguments before ++ meaning arguments c ++ substitute arguments after) ∧
    (∀ line : String, ∃ parts : Parts, parts.Valid ∧ line.toList = parts.written ∧
      (substitute arguments line).toList = parts.replaced arguments) := by
  refine ⟨fun a b apart => substitute_append arguments apart,
    substitute_parameter arguments (by decide),
    fun n least most => substitute_number arguments least most,
    substitute_parameter arguments (by decide), substitute_parameter arguments (by decide),
    fun text plain => ?_,
    fun c listed before after => substitute_around arguments listed before after, fun line => ?_⟩
  · rw [substitute, substituteChars_plain arguments plain, String.ofList_toList]
  · obtain ⟨parts, valid, written⟩ := Parts.exists_written line.toList
    refine ⟨parts, valid, written, ?_⟩
    rw [toList_substitute, written, Parts.substituteChars_written arguments valid]

/-- An argument that is an `&`, before a digit, and an argument that looks like a parameter: neither
is looked at again. A second `&` before a parameter is kept, and so is one at the end. -/
theorem substitute_onePass_ampersands :
    let arguments := ["&", "&1"]
    (¬ MakeParameter "&".toList "&11".toList ∧
      substitute arguments ("&" ++ "&11") =
        substitute arguments "&" ++ substitute arguments "&11") ∧
    (1 ≤ 2 ∧ 2 ≤ 9 ∧ substitute arguments "&2" = "&1") ∧
    (Plain "y&&".toList ∧ substitute arguments "y&&" = "y&&") ∧
    ('1' ∈ parameterChars ∧ substitute arguments "&&112" = "&&12") := by
  intro arguments
  obtain ⟨append, -, number, -, -, plain, around, -⟩ := substitute_onePass arguments
  have apart : ¬ MakeParameter "&".toList "&11".toList :=
    not_makeParameter_of_head rfl ampersand_not_mem
  have free : Plain "y&&".toList := by
    have last : Plain ['&'] := plain_cons_iff.mpr ⟨fun c _ inside => (by simp at inside),
      fun made => (by obtain ⟨-, c, -, next⟩ := made; cases next)⟩
    have both : Plain ['&', '&'] :=
      plain_cons_iff.mpr ⟨last, not_makeParameter_of_head rfl ampersand_not_mem⟩
    exact plain_cons_iff.mpr ⟨both, not_makeParameter_of_head rfl ampersand_not_mem⟩
  refine ⟨⟨apart, append _ _ apart⟩, ⟨by decide, by decide, ?_⟩, ⟨free, plain _ free⟩,
    by decide, ?_⟩
  · exact number 2 (by decide) (by decide)
  · exact (around '1' (by decide) "&" "12").trans (by decide)

end Asm6502.Macro
