import Asm6502.Assembly.Data
import Asm6502.Assembly.Encode
import Asm6502.Expr.Value
import Asm6502.Listing
import Asm6502.Statement

/-!
# Effects of statements

What one statement of an enabled block asks for, as a value: bytes and the change of the location
counter, names, settings, entries of the listing, and what is wrong with it. The same effect is used
in both passes; which part of it counts is for the pass to decide.
-/

namespace Asm6502

/-- The two passes over a program. -/
inductive Pass where
  /-- The first pass fixes the layout and the values of labels. -/
  | one
  /-- The second pass produces the output. -/
  | two
  deriving DecidableEq, Repr

/-- What the first pass decides on a statement, for the second pass to follow. -/
inductive Layout where
  /-- The addressing mode of an instruction. -/
  | mode (mode : Mode)
  /-- The new location, or the number of bytes to reserve. -/
  | amount (value : UInt16)
  deriving DecidableEq, Repr

/-- What the first pass decided, if it was a mode. -/
def Layout.mode? : Layout → Option Mode
  | .mode decided => some decided
  | .amount _ => none

/-- What the first pass decided, if it was an amount. -/
def Layout.amount? : Layout → Option UInt16
  | .mode _ => none
  | .amount value => some value

/-- What a statement can see. -/
structure Env where
  /-- The pass. -/
  pass : Pass
  /-- A listing is made. -/
  listing : Bool
  /-- The symbols, the statement's own label included. -/
  symbols : SymbolTable
  /-- The location counter. -/
  here : UInt16
  /-- The top bit of text bytes. -/
  msb : Bool

/-- A part of a statement's bytes that depends on where the program is loaded. -/
structure Fixup where
  /-- How many bytes of the statement stand before it. -/
  offset : Nat
  /-- The number of its bytes. -/
  size : Nat
  deriving DecidableEq, Repr

/-- What a statement asks for. -/
structure Effect where
  /-- The decision on its layout. -/
  layout : Option Layout := none
  /-- The location to go to. -/
  origin : Option UInt16 := none
  /-- The bytes it produces. -/
  bytes : List UInt8 := []
  /-- How far the location counter moves. -/
  advance : UInt16 := 0
  /-- The parts of the bytes that depend on where the program is loaded. -/
  fixups : List Fixup := []
  /-- The value for its label. -/
  binding : Option (Name × UInt16) := none
  /-- The value that the listing shows. -/
  value : Option UInt16 := none
  /-- Names that are defined elsewhere. -/
  externals : List Name := []
  /-- Names that are used elsewhere. -/
  entries : List Name := []
  /-- The program becomes relocatable. -/
  relocatable : Bool := false
  /-- A dummy section starts or ends. -/
  dsect : Option Bool := none
  /-- The new setting of the top bit of text bytes. -/
  msb : Option Bool := none
  /-- What it puts into the listing instead of itself. -/
  entry : Option Listing.Entry := none
  /-- What is wrong with it. -/
  problems : List Cause := []

namespace Effect

/-- The effect of a statement that is only reported. -/
def report (cause : Cause) : Effect := { problems := [cause] }

/-- The effect of one run of bytes. The counter moves by at most 65535. -/
def chunk (bytes : List UInt8) : Effect :=
  { bytes, advance := UInt16.ofNat (min bytes.length 65535) }

end Effect

/-- What is wrong with the evaluation of an expression. -/
def Evaluation.problems (evaluation : Evaluation) (expr : Expr) : List Cause :=
  evaluation.undefined.map .undefinedSymbol ++
    if evaluation.divisionByZero then [.divisionByZero expr] else []

namespace Env

/-- The value of an expression. -/
def evaluate (env : Env) (expr : Expr) : Evaluation := expr.evaluate env.symbols env.here

/-- What is wrong with an expression. -/
def problems (env : Env) (expr : Expr) : List Cause := (env.evaluate expr).problems expr

end Env

namespace Effect

/-! ### Instructions -/

/-- The operand is known to fit a byte, so that a zero-page mode can be taken. -/
def isNarrow (evaluation : Evaluation) : Bool :=
  evaluation.isDefined && !evaluation.external && evaluation.value ≤ 0xFF

/-- The operand of an instruction, unless it is the accumulator. -/
def memoryOperand? (opcode : Opcode) (operand : Option Operand) : Option Operand :=
  operand.filter fun operand => !(operand.form == .accumulator && opcode.supports .accumulator)

/-- The part of an instruction that depends on where the program is loaded. -/
def instructionFixups (mode : Mode) (operand : Option Operand) : List Fixup :=
  match operand with
  | none => []
  | some operand =>
    if !operand.expr.referencesSymbol then []
    else if mode.operandLength = 2 then [⟨1, 2⟩]
    else if operand.form = .immediateLow ∨ operand.form = .immediateHigh then [⟨1, 1⟩]
    else []

/-- The effect of an instruction whose mode is known. -/
def encoded (env : Env) (opcode : Opcode) (mode : Mode) (operand : Option Operand)
    (value : UInt16) : Effect :=
  match opcode.encoding? mode with
  | none => { layout := some (.mode mode), problems := [.unsupportedMode opcode.mnemonic mode] }
  | some byte =>
    let form := operand.map (·.form)
    { layout := some (.mode mode)
      bytes := byte :: Encode.operandBytes mode form env.here value
      advance := UInt16.ofNat mode.instructionLength
      fixups := instructionFixups mode operand
      problems :=
        (if mode.operandLength > 0 ∧ operand.isNone then [.operandMissing opcode.mnemonic] else []) ++
          Encode.operandProblems mode form env.here value }

/-- The mode of an instruction: the one that the first pass decided on, or the one that the form
and the value of the operand select. -/
def instructionMode (opcode : Opcode) (decided : Option Layout) (operand : Option Operand)
    (evaluation : Option Evaluation) : Except Cause Mode :=
  match decided.bind Layout.mode? with
  | some mode => .ok mode
  | none => Encode.selectMode opcode (operand.map (·.form)) (evaluation.any isNarrow)

/-- The effect of an instruction. -/
def instruction (env : Env) (decided : Option Layout) (statement : Statement) (mnemonic : String)
    (operand : Option Operand) (unread : List Token) : Effect :=
  match Opcode.find? mnemonic with
  | none => report (.unknownMnemonic mnemonic)
  | some opcode =>
    if !unread.isEmpty then report (.unreadableOperand statement.operandText)
    else
      let memory := (memoryOperand? opcode operand).map (·.expr)
      let evaluation := memory.map env.evaluate
      let found := memory.toList.flatMap env.problems
      match instructionMode opcode decided operand evaluation with
      | .error cause => { problems := found ++ [cause] }
      | .ok mode =>
        let effect := encoded env opcode mode operand ((evaluation.map (·.value)).getD 0)
        { effect with problems := found ++ effect.problems }

/-! ### Data -/

/-- The effect of a value list. -/
def values (env : Env) (statement : Statement) (shape : ValueShape) : Effect :=
  let items := Operand.valueList statement.operandTokens
  let exprs := items.filterMap id
  let bytes := exprs.flatMap fun expr => shape.bytes (env.evaluate expr).value
  { bytes
    advance := UInt16.ofNat bytes.length
    fixups := (exprs.zipIdx.filter (·.1.referencesSymbol)).map fun (_, index) =>
      ⟨index * shape.size, shape.size⟩
    problems :=
      if items.isEmpty then [.valuesMissing]
      else items.flatMap fun
        | some expr => env.problems expr
        | none => [.malformedValue statement.operandText] }

/-- The effect of a string directive. -/
def string (env : Env) (statement : Statement) (style : StringStyle) : Effect :=
  match statement.string? with
  | none => report (.stringMissing (.string style))
  | some text => { chunk (style.bytes env.msb text) with problems := style.problems text }

/-- The digits of a hexadecimal directive: its operand without commas. -/
def hexText (statement : Statement) : String :=
  Token.joined (statement.operandTokens.filter (·.kind != .comma))

/-- The effect of a hexadecimal directive. -/
def hex (statement : Statement) : Effect :=
  let text := hexText statement
  if text.isEmpty then report .hexMissing
  else { chunk (Hex.bytes text) with problems := (Hex.problem? text).toList }

/-! ### Directives with one operand -/

/-- The amount that a directive is laid out with: what the first pass decided, or the value of its
operand. A value that differs from the decision is reported. -/
def laidOut (env : Env) (decided : Option Layout) (directive : Directive) (expr : Expr)
    (effect : UInt16 → Effect) : Effect :=
  let value := (env.evaluate expr).value
  let amount := (decided.bind Layout.amount?).getD value
  { effect amount with
    layout := some (.amount amount)
    problems :=
      env.problems expr ++
        if amount = value then [] else [.layoutChanged directive amount value] }

/-- The effect of setting the location counter. -/
def org (amount : UInt16) : Effect := { origin := some amount }

/-- The effect of reserving bytes. -/
def reserve (amount : UInt16) : Effect :=
  { bytes := List.replicate amount.toNat 0, advance := amount }

/-- The effect of giving a label a value. In the first pass a value that depends on a name without
a definition is not given, so that uses of the label are not taken for zero-page addresses. -/
def equate (env : Env) (label : Option Name) (expr : Expr) : Effect :=
  let evaluation := env.evaluate expr
  match label with
  | none =>
    { value := some evaluation.value, problems := env.problems expr ++ [.labelMissing] }
  | some label =>
    { value := some evaluation.value
      binding :=
        if env.pass = .two ∨ evaluation.isDefined then some (label, evaluation.value) else none
      problems := env.problems expr }

/-! ### Switches, names and the listing -/

/-- The setting that a text asks for; no text means on. -/
def switch? (text : String) : Option Bool :=
  if text.isEmpty || Text.upper text == "ON" then some true
  else if Text.upper text == "OFF" then some false
  else none

/-- The effect of setting the top bit of text bytes; a number other than zero means on. -/
def setMsb (env : Env) (statement : Statement) (operand : Option Expr) : Effect :=
  match switch? statement.operandText, operand with
  | some on, _ => { msb := some on }
  | none, some expr =>
    { msb := some ((env.evaluate expr).value != 0), problems := env.problems expr }
  | none, none => { msb := some false }

/-- The names in an operand, between commas; quotes around a name do not count. -/
def nameList (statement : Statement) : List Name :=
  let texts := (statement.operandTokens.splitOnP (·.kind == .comma)).map fun group =>
    Text.trimmed (Text.unquote (Token.joined group))
  (texts.filter (!·.isEmpty)).map Name.ofText

/-- What is wrong with an operand that should hold names. -/
def nameProblems (directive : Directive) (names : List Name) : List Cause :=
  if names.isEmpty then [.operandMissing directive.keyword] else []

/-- What a listing directive puts into the listing. -/
def listingEntry (control : ListingControl) (text : String) (count : UInt16) :
    Option Listing.Entry :=
  match control with
  | .list => some (.setEnabled ((switch? text).getD true))
  | .listDisabled => some (.setShowSuppressed ((switch? text).getD true))
  | .page => some .page
  | .skip => some (.skip count)
  | .rule => some (.rule count)
  | .ruleChar => text.toList.head?.map .setRuleChar
  | .subtitle => some (.subtitle text)

/-- The effect of a listing directive. Its operand is looked at only while a listing is made. -/
def listing (env : Env) (statement : Statement) (control : ListingControl)
    (operand : Option Expr) : Effect :=
  if !env.listing then {}
  else
    let counted := operand.filter fun _ => control == .skip || control == .rule
    { entry :=
        listingEntry control statement.stringOrText
          ((counted.map fun expr => (env.evaluate expr).value).getD 1)
      problems := counted.toList.flatMap env.problems }

/-! ### All directives -/

/-- The effect of a directive; conditional directives have their effect elsewhere. -/
def directive (env : Env) (decided : Option Layout) (statement : Statement)
    (directive : Directive) (operand : Option Expr) : Effect :=
  let withOperand (effect : Expr → Effect) : Effect :=
    match operand with
    | some expr => effect expr
    | none => report (.operandMissing directive.keyword)
  match directive with
  | .org => withOperand fun expr => laidOut env decided directive expr org
  | .equ => withOperand (equate env statement.label)
  | .values shape => values env statement shape
  | .string style => string env statement style
  | .hex => hex statement
  | .reserve => withOperand fun expr => laidOut env decided directive expr reserve
  | .dsect => { dsect := some true }
  | .dend => { dsect := some false }
  | .msb => setMsb env statement operand
  | .rel => { relocatable := true }
  | .externals =>
    { relocatable := true, externals := nameList statement
      problems := nameProblems directive (nameList statement) }
  | .entries =>
    { relocatable := true, entries := nameList statement
      problems := nameProblems directive (nameList statement) }
  | .fail => report (.userFailure statement.stringOrText)
  | .listing control => listing env statement control operand
  | .opener _ | .otherwise | .fin | .includeFile | .ignored _ => {}

/-- The effect of a statement in an enabled block. -/
def ofStatement (env : Env) (decided : Option Layout) (statement : Statement) : Effect :=
  match statement.operation with
  | none => {}
  | some (.instruction mnemonic operand unread) =>
    instruction env decided statement mnemonic operand unread
  | some (.directive directive operand) => Effect.directive env decided statement directive operand

end Effect

end Asm6502
