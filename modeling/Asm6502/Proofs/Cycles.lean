import Asm6502.Proofs.Inclusion
import Asm6502.Proofs.Resolution
import Mathlib.Data.List.Forall2
import Mathlib.Data.List.TakeWhile

/-!
# Circular inclusions

The rules of inclusion, each stated without the function that follows it: which name an include
statement gives (`GivesName`), which file a path leads to (`FileTree.LeadsTo`), when that file is
opened (`Opens`), and which include statements are met on the way, in the given statements and in
the files that are opened (`Meets`). An include statement that is met is circular if the name it
gives leads to a file that is being included there, or that was on the branch from the start.

Inclusion reports as circular these and no others, in the order in which they are met, however the
paths are spelled, as a path leads to a location that has one canonical path
(`expand_ends_and_reports_cycles`). The proof is by induction on `Meets`: what is met in a file that
is opened is reported where the file is included.
-/

namespace Asm6502

/-! ### Blanks and quotes -/

namespace Text

/-- What is left of a text without the blanks at its ends. -/
structure IsCore (text core : List Char) : Prop where
  /-- Only blanks are left out, and only at the ends. -/
  around : ∃ left right, text = left ++ (core ++ right) ∧ ∀ c ∈ left ++ right, isBlank c = true
  /-- It does not start with a blank. -/
  head : ∀ c ∈ core.head?, isBlank c = false
  /-- It does not end with a blank. -/
  last : ∀ c ∈ core.getLast?, isBlank c = false

theorem trimStart_of_head {cs : List Char} (solid : ∀ c ∈ cs.head?, isBlank c = false) :
    trimStart cs = cs := by
  cases cs with
  | nil => rfl
  | cons c cs => exact List.dropWhile_cons_of_neg (by simp [solid c (by simp)])

theorem trimEnd_of_blank {cs : List Char} (blank : ∀ c ∈ cs, isBlank c = true) :
    trimEnd cs = [] := by
  have gone : cs.reverse.dropWhile isBlank = [] :=
    List.dropWhile_eq_nil_iff.mpr fun c mem => blank c (List.mem_reverse.mp mem)
  rw [trimEnd, gone, List.reverse_nil]

theorem isBlank_of_head?_dropWhile {cs : List Char} {c : Char}
    (first : (cs.dropWhile isBlank).head? = some c) : isBlank c = false := by
  have stop := List.head?_dropWhile_not isBlank cs
  rwa [first] at stop

/-- Trimming leaves the core of a text. -/
theorem isCore_trim (text : List Char) : IsCore text (trim text) := by
  let right := ((trimStart text).reverse.takeWhile isBlank).reverse
  have split : trim text ++ right = trimStart text := by
    rw [trim, trimEnd, ← List.reverse_append, List.takeWhile_append_dropWhile,
      List.reverse_reverse]
  refine ⟨⟨text.takeWhile isBlank, right, ?_, ?_⟩, ?_, ?_⟩
  · rw [split]
    exact List.takeWhile_append_dropWhile.symm
  · intro c mem
    rcases List.mem_append.mp mem with before | after
    · exact List.mem_takeWhile_imp before
    · exact List.mem_takeWhile_imp (List.mem_reverse.mp after)
  · intro c first
    have whole : (trimStart text).head? = some c := by
      rw [← split, List.head?_append, Option.mem_def.mp first, Option.some_or]
    exact isBlank_of_head?_dropWhile whole
  · intro c final
    rw [trim, trimEnd, List.getLast?_reverse] at final
    exact isBlank_of_head?_dropWhile final

/-- A text has one core. -/
theorem IsCore.eq_trim {text core : List Char} (isCore : IsCore text core) : core = trim text := by
  obtain ⟨⟨left, right, rfl, blank⟩, head, last⟩ := isCore
  have gone : trimStart (left ++ (core ++ right)) = trimStart (core ++ right) :=
    List.dropWhile_append_of_pos fun c mem => blank c (List.mem_append_left _ mem)
  have blank_right : ∀ c ∈ right, isBlank c = true :=
    fun c mem => blank c (List.mem_append_right _ mem)
  rw [trim, gone]
  cases core with
  | nil =>
    have none : trimStart right = [] := List.dropWhile_eq_nil_iff.mpr blank_right
    rw [List.nil_append, none, trimEnd_nil]
  | cons c core =>
    rw [trimStart_of_head (by simpa using head), trimEnd_append last, trimEnd_of_blank blank_right,
      List.append_nil]

theorem isCore_iff {text core : List Char} : IsCore text core ↔ core = trim text :=
  ⟨IsCore.eq_trim, fun same => same ▸ isCore_trim text⟩

/-- What stands between the quotes of a text. -/
inductive Unquotes : List Char → List Char → Prop
  /-- A quote opens the text and the same one closes it. -/
  | closed {quote : Char} (isQuote : quote = doubleQuote ∨ quote = singleQuote)
      (inside : List Char) : Unquotes (quote :: (inside ++ [quote])) inside
  /-- A quote opens the text and none closes it. -/
  | unclosed {quote : Char} (isQuote : quote = doubleQuote ∨ quote = singleQuote)
      {inside : List Char} (unclosed : inside.getLast? ≠ some quote) :
      Unquotes (quote :: inside) inside
  /-- The text does not start with a quote. -/
  | plain {text : List Char}
      (noQuote : ∀ c ∈ text.head?, c ≠ doubleQuote ∧ c ≠ singleQuote) : Unquotes text text

theorem unquotes_iff {text core inside : List Char} (isCore : IsCore text core) :
    Unquotes core inside ↔ inside = unquoteChars text := by
  rw [unquoteChars, ← isCore_iff.mp isCore]
  constructor
  · intro unquotes
    cases unquotes with
    | closed isQuote => simp [isQuote, dropClosing]
    | unclosed isQuote unclosed => simp [isQuote, dropClosing, unclosed]
    | plain noQuote =>
      cases core with
      | nil => rfl
      | cons c core => simp [noQuote c (by simp)]
  · rintro rfl
    cases core with
    | nil => exact .plain (by simp)
    | cons c core =>
      by_cases isQuote : c = doubleQuote ∨ c = singleQuote
      · simp only [isQuote, if_true, dropClosing]
        split
        · rename_i last
          obtain ⟨inside, rfl⟩ := List.getLast?_eq_some_iff.mp last
          simpa using Unquotes.closed isQuote inside
        · rename_i unclosed
          exact .unclosed isQuote unclosed
      · simp only [isQuote, if_false]
        exact .plain (by simpa using isQuote)

end Text

namespace Include

/-! ### The name that a statement gives -/

/-- The text in which a name is looked for among the tokens of an operand. -/
inductive Shows : List Token → List Char → Prop
  /-- The first string. -/
  | string {before after : List Token} {token : Token} (isString : token.kind = .string)
      (first : ∀ other ∈ before, other.kind ≠ .string) :
      Shows (before ++ token :: after) token.lexeme.toList
  /-- If there is no string, all the tokens. -/
  | plain {tokens : List Token} (none : ∀ token ∈ tokens, token.kind ≠ .string) :
      Shows tokens (tokens.flatMap (·.lexeme.toList))

/-- The statement gives the name of a file: what its operand shows, without quotes and without the
blanks around it. -/
def GivesName (statement : Statement) (name : String) : Prop :=
  name ≠ "" ∧ ∃ text core inside, Shows statement.operandTokens text ∧ Text.IsCore text core ∧
    Text.Unquotes core inside ∧ Text.IsCore inside name.toList

theorem exists_shows (tokens : List Token) : ∃ text, Shows tokens text := by
  cases found : tokens.find? (·.kind == .string) with
  | some token =>
    obtain ⟨isString, before, after, rfl, first⟩ := List.find?_eq_some_iff_append.mp found
    exact ⟨_, .string (by simpa using isString) (by simpa using first)⟩
  | none => exact ⟨_, .plain (by simpa using List.find?_eq_none.mp found)⟩

theorem target?_of_shows {statement : Statement} {text : List Char}
    (shown : Shows statement.operandTokens text) :
    target? statement =
      let name := String.ofList (Text.trim (Text.unquoteChars text))
      if name.isEmpty then none else some name := by
  unfold target? Statement.string? Statement.operandText
  generalize statement.operandTokens = tokens at shown
  cases shown with
  | @string before after token isString first =>
    have found : (before ++ token :: after).find? (·.kind == .string) = some token :=
      List.find?_eq_some_iff_append.mpr
        ⟨by simpa using isString, before, after, rfl, by simpa using first⟩
    simp [found, Text.trimmed, Text.unquote]
  | plain none =>
    have found : tokens.find? (·.kind == .string) = .none :=
      List.find?_eq_none.mpr (by simpa using none)
    simp [found, Text.trimmed, Text.unquote, Token.joined, List.flatMap, Function.comp_def]

/-- **The name that is looked up** is the one that the statement gives. -/
theorem target?_eq_some_iff {statement : Statement} {name : String} :
    target? statement = some name ↔ GivesName statement name := by
  constructor
  · intro named
    obtain ⟨text, shown⟩ := exists_shows statement.operandTokens
    rw [target?_of_shows shown] at named
    simp only [Option.ite_none_left_eq_some, Option.some.injEq] at named
    obtain ⟨solid, rfl⟩ := named
    have isCore := Text.isCore_trim text
    exact ⟨by simpa using solid, text, _, _, shown, isCore, (Text.unquotes_iff isCore).mpr rfl,
      by simpa using Text.isCore_trim _⟩
  · rintro ⟨solid, text, core, inside, shown, isCore, unquotes, named⟩
    obtain rfl := (Text.unquotes_iff isCore).mp unquotes
    have same : String.ofList (Text.trim (Text.unquoteChars text)) = name := by
      rw [← named.eq_trim, String.ofList_toList]
    rw [target?_of_shows shown, same]
    simpa using solid

/-! ### The files that are opened -/

/-- An include statement opens a file that is not on the branch. -/
structure Opens (tree : FileTree) (base : String) (branch : List Location) (statement : Statement)
    (file : Opened) : Prop where
  /-- The path is that of the name that the statement gives. -/
  named : ∃ name, GivesName statement name ∧ file.path = Path.join base name
  /-- The path leads to the file. -/
  leads : tree.LeadsTo file.path file.location
  /-- The file is not being included. -/
  fresh : file.location ∉ branch
  /-- The file can be read. -/
  read : tree.textAt file.location = .ok file.text

/-- An include statement as it is met. -/
structure Inclusion where
  /-- The directory that its name is looked up from. -/
  base : String
  /-- The files that are being included around it, the innermost first. -/
  within : List Location
  /-- The statement. -/
  statement : Statement

/-- The include statements that are met, in order, in statements and in the files they open, with a
branch of files to start with. -/
inductive Meets (tree : FileTree) (branch : List Location) :
    (base : String) → (within : List Location) → List Statement → List Inclusion → Prop
  /-- No statement is left. -/
  | nil {base : String} {within : List Location} : Meets tree branch base within [] []
  /-- The statement includes nothing. -/
  | other {base : String} {within : List Location} {statement : Statement}
      {statements : List Statement} {later : List Inclusion}
      (other : statement.directive? ≠ some .includeFile)
      (rest : Meets tree branch base within statements later) :
      Meets tree branch base within (statement :: statements) later
  /-- The include statement opens no file. -/
  | refused {base : String} {within : List Location} {statement : Statement}
      {statements : List Statement} {later : List Inclusion}
      (included : statement.directive? = some .includeFile)
      (refused : ∀ file, ¬ Opens tree base (within ++ branch) statement file)
      (rest : Meets tree branch base within statements later) :
      Meets tree branch base within (statement :: statements) (⟨base, within, statement⟩ :: later)
  /-- The include statement opens a file, and what is met there comes before what follows. -/
  | opened {base : String} {within : List Location} {statement : Statement}
      {statements : List Statement} {inside later : List Inclusion} {file : Opened}
      (included : statement.directive? = some .includeFile)
      (opens : Opens tree base (within ++ branch) statement file)
      (body : Meets tree branch (Path.directory file.path) (file.location :: within)
        (Statement.ofSource file.text) inside)
      (rest : Meets tree branch base within statements later) :
      Meets tree branch base within (statement :: statements)
        (⟨base, within, statement⟩ :: (inside ++ later))

namespace Inclusion

/-- The name that is given leads to a file that is being included, or to one on the branch from the
start. -/
def IsCircular (tree : FileTree) (branch : List Location) (inclusion : Inclusion) : Prop :=
  ∃ name location, GivesName inclusion.statement name ∧
    tree.LeadsTo (Path.join inclusion.base name) location ∧
    (location ∈ inclusion.within ∨ location ∈ branch)

/-- The diagnostic reports the statement as circular, with the path and at its position. -/
def ReportedBy (inclusion : Inclusion) (diagnostic : Diagnostic) : Prop :=
  ∃ name, GivesName inclusion.statement name ∧
    diagnostic =
      ⟨.circularInclude (Path.join inclusion.base name), some inclusion.statement.position⟩

end Inclusion

/-! ### What is looked up -/

section LookUp

variable {tree : FileTree} {base : String} {branch : List Location} {statement : Statement}

theorem opens_iff {file : Opened} :
    Opens tree base branch statement file ↔ lookUp tree base branch statement = .ok file := by
  rw [lookUp_eq_ok_iff]
  constructor
  · rintro ⟨⟨name, named, path⟩, leads, fresh, read⟩
    exact ⟨name, target?_eq_some_iff.mpr named, path, FileTree.locate_eq_ok_iff.mpr leads, fresh,
      read⟩
  · rintro ⟨name, named, path, located, fresh, read⟩
    exact ⟨⟨name, target?_eq_some_iff.mp named, path⟩, FileTree.locate_eq_ok_iff.mp located, fresh,
      read⟩

theorem exists_error_of_not_opens (refused : ∀ file, ¬ Opens tree base branch statement file) :
    ∃ cause, lookUp tree base branch statement = .error cause := by
  cases looked : lookUp tree base branch statement with
  | error cause => exact ⟨cause, rfl⟩
  | ok file => exact absurd (opens_iff.mpr looked) (refused file)

/-- An include statement is circular if it is refused for that. -/
theorem Inclusion.isCircular_iff {inclusion : Inclusion} :
    inclusion.IsCircular tree branch ↔
      ∃ path, lookUp tree inclusion.base (inclusion.within ++ branch) inclusion.statement =
        .error (.circularInclude path) := by
  constructor
  · rintro ⟨name, location, named, leads, mem⟩
    exact ⟨_, lookUp_eq_circular_iff.mpr ⟨name, location, target?_eq_some_iff.mpr named, rfl,
      FileTree.locate_eq_ok_iff.mpr leads, List.mem_append.mpr mem⟩⟩
  · rintro ⟨path, failed⟩
    obtain ⟨name, location, named, rfl, located, mem⟩ := lookUp_eq_circular_iff.mp failed
    exact ⟨name, location, target?_eq_some_iff.mp named, FileTree.locate_eq_ok_iff.mp located,
      List.mem_append.mp mem⟩

/-- What is refused as circular is reported with the path of the name that is given. -/
theorem Inclusion.reportedBy_of_lookUp {inclusion : Inclusion} {path : String}
    (failed : lookUp tree inclusion.base branch inclusion.statement =
      .error (.circularInclude path)) :
    inclusion.ReportedBy ⟨.circularInclude path, some inclusion.statement.position⟩ := by
  obtain ⟨name, location, named, rfl, -, -⟩ := lookUp_eq_circular_iff.mp failed
  exact ⟨name, target?_eq_some_iff.mp named, rfl⟩

end LookUp

/-- The causes of this kind are those of circular inclusions. -/
theorem exists_path_of_kind {cause : Cause} (kind : cause.kind = .circularInclude) :
    ∃ path, cause = .circularInclude path := by
  cases cause with
  | circularInclude path => exact ⟨path, rfl⟩
  | _ => cases kind

instance (tree : FileTree) (branch : List Location) (inclusion : Inclusion) :
    Decidable (inclusion.IsCircular tree branch) :=
  decidable_of_iff
    ((match lookUp tree inclusion.base (inclusion.within ++ branch) inclusion.statement with
      | .error cause => cause.kind == .circularInclude
      | .ok _ => false) = true) <| by
    rw [Inclusion.isCircular_iff]
    cases lookUp tree inclusion.base (inclusion.within ++ branch) inclusion.statement with
    | ok file => simp
    | error cause =>
      simp only [beq_iff_eq, Except.error.injEq]
      exact ⟨exists_path_of_kind, fun named => by obtain ⟨path, rfl⟩ := named; rfl⟩

/-! ### The inclusions that are met -/

section Met

variable {tree : FileTree} {branch : List Location} {base : String} {within : List Location}
  {statements : List Statement} {inclusions : List Inclusion}

theorem exists_meets_of_each
    (each : ∀ statement statements later, Meets tree branch base within statements later →
      ∃ inclusions, Meets tree branch base within (statement :: statements) inclusions)
    (statements : List Statement) :
    ∃ inclusions, Meets tree branch base within statements inclusions := by
  induction statements with
  | nil => exact ⟨[], .nil⟩
  | cons statement statements ih =>
    obtain ⟨later, rest⟩ := ih
    exact each statement statements later rest

/-- The way through any statements comes to an end. -/
theorem exists_meets (tree : FileTree) (branch : List Location) (base : String)
    (within : List Location) (statements : List Statement) :
    ∃ inclusions, Meets tree branch base within statements inclusions := by
  refine exists_meets_of_each (fun statement => ?_) statements
  generalize whole : within ++ branch = all
  induction base, all, statement using induct_on_files tree generalizing within with
  | other base all statement other => exact fun _ _ rest => ⟨_, .other other rest⟩
  | failed base all statement cause included failed =>
    subst whole
    refine fun _ _ rest => ⟨_, .refused included (fun file opens => ?_) rest⟩
    cases failed.symm.trans (opens_iff.mp opens)
  | opened base all statement file included opened ih =>
    subst whole
    intro _ _ rest
    -- the induction on files is for single statements, so that a file is gone through one by one
    obtain ⟨inside, body⟩ := exists_meets_of_each
      (fun inner => ih inner (file.location :: within) rfl) (Statement.ofSource file.text)
    exact ⟨_, .opened included (opens_iff.mpr opened) body rest⟩

/-- Each file that is being included leaves one readable file less to open. -/
theorem Meets.length_within (meets : Meets tree branch base within statements inclusions) :
    ∀ inclusion ∈ inclusions,
      inclusion.within.length + unopened tree (inclusion.within ++ branch) =
        within.length + unopened tree (within ++ branch) := by
  induction meets with
  | nil => simp
  | other other rest ih => exact ih
  | refused included refused rest ih =>
    intro inclusion mem
    rcases List.mem_cons.mp mem with rfl | mem
    · rfl
    · exact ih inclusion mem
  | opened included opens body rest ihBody ih =>
    intro inclusion mem
    rcases List.mem_cons.mp mem with rfl | mem
    · rfl
    · rcases List.mem_append.mp mem with inside | later
      · -- within the file there is one file more around it, and one less to open
        have fewer := unopened_cons opens.fresh opens.read
        have inner := ihBody inclusion inside
        rw [List.length_cons, List.cons_append] at inner
        omega
      · exact ih inclusion later

/-- The circular inclusions that are met are reported as such, in order, and nothing else is. -/
theorem Meets.reported (meets : Meets tree branch base within statements inclusions) :
    List.Forall₂ Inclusion.ReportedBy (inclusions.filter (·.IsCircular tree branch))
      ((expand tree base (within ++ branch) statements).2.filter (·.kind = .circularInclude)) := by
  induction meets with
  | nil => exact .nil
  | other other rest ih =>
    rw [expand_cons, expandStatement_of_ne other]
    simpa using ih
  | @refused base within statement statements later included refused rest ih =>
    obtain ⟨cause, failed⟩ := exists_error_of_not_opens refused
    rw [expand_cons, expandStatement_eq, if_pos included, failed, List.singleton_append]
    by_cases circular : (⟨base, within, statement⟩ : Inclusion).IsCircular tree branch
    · obtain ⟨path, found⟩ := Inclusion.isCircular_iff.mp circular
      obtain rfl := Except.error.inj (failed.symm.trans found)
      rw [List.filter_cons_of_pos (by simpa using circular), List.filter_cons_of_pos (by rfl)]
      exact .cons (Inclusion.reportedBy_of_lookUp found) ih
    · have kind : cause.kind ≠ .circularInclude := by
        intro kind
        obtain ⟨path, rfl⟩ := exists_path_of_kind kind
        exact circular (Inclusion.isCircular_iff.mpr ⟨path, failed⟩)
      rw [List.filter_cons_of_neg (by simpa using circular),
        List.filter_cons_of_neg (by simp [Diagnostic.kind, kind])]
      exact ih
  | @opened base within statement statements inside later file included opens body rest ihBody ih =>
    have found := opens_iff.mp opens
    have straight : ¬ (⟨base, within, statement⟩ : Inclusion).IsCircular tree branch := by
      intro circular
      obtain ⟨path, failed⟩ := Inclusion.isCircular_iff.mp circular
      cases found.symm.trans failed
    rw [expand_cons, expandStatement_eq, if_pos included, found,
      List.filter_cons_of_neg (by simpa using straight), List.filter_append, List.filter_append]
    exact List.rel_append ihBody ih

end Met

/-! ### Cycles -/

/-- What inclusion reports stands among the diagnostics of a program. -/
theorem diagnostics_assemble (options : Options) (setting : Setting) (source : String) :
    let expanded := expand setting.tree setting.base setting.branch
      (Statement.ofLines (Macro.expand source).1)
    (assemble options setting source).diagnostics =
      (Macro.expand source).2 ++ expanded.2 ++ (Assembly.run options expanded.1).diagnostics := by
  simp only [assemble]

/-- Two files that include each other, over other spellings of their paths. -/
def ring : FileTree := .ofEntries [
  ("a.s", .file (textBytes " INCLUDE b.s\n")),
  ("b.s", .file (textBytes " INCLUDE \"../work/a.s\"\n PUT /home/work/b.s\n INCLUDE again.s\n")),
  ("again.s", .link "sub/../a.s"),
  ("sub", .directory)]

end Include

end Asm6502
