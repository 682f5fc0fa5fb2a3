import Asm6502.Assembly.Effect
import Asm6502.Condition

/-!
# Steps

A step processes one statement: it changes the state and reports what the statement produced. Both
passes take the same steps. The first one keeps the layout of each statement and reports names that
change their value; the second one produces bytes, relocations, the listing and all other
diagnostics.
-/

namespace Asm6502

/-- What the user can choose. -/
structure Options where
  /-- Make a listing. -/
  listing : Bool := false
  /-- The top bit of text bytes at the start. -/
  msb : Bool := false
  deriving DecidableEq, Repr

/-- A place in the output that depends on where the program is loaded. -/
structure Relocation where
  /-- The address of its first byte. -/
  address : UInt16
  /-- The number of its bytes. -/
  size : Nat
  deriving DecidableEq, Repr

namespace Assembly

/-- What is known between two statements. -/
structure State where
  /-- The location counter. -/
  here : UInt16 := 0
  /-- The top bit of text bytes. -/
  msb : Bool := false
  /-- A dummy section is open. -/
  inDsect : Bool := false
  /-- The program is relocatable. -/
  relocatable : Bool := false
  /-- The open conditional blocks. -/
  conditions : Conditions := {}
  /-- The symbols. -/
  symbols : SymbolTable := {}
  /-- The names defined elsewhere, in the order of their first declaration. -/
  externals : List Name := []
  /-- The names used elsewhere, in the order of their first declaration. -/
  entries : List Name := []

/-- What a step produces. -/
structure Report where
  /-- The layout of the statement. -/
  layout : Option Layout := none
  /-- The bytes that go to the output. -/
  bytes : List UInt8 := []
  /-- The relocations that go to the output. -/
  relocations : List Relocation := []
  /-- What was found wrong. -/
  diagnostics : List Diagnostic := []
  /-- What goes into the listing. -/
  entry : Option Listing.Entry := none

/-- Names with further ones at their end, each name once. -/
def addNames (names further : List Name) : List Name :=
  further.foldl (fun names name => if names.contains name then names else names ++ [name]) names

namespace State

/-- Give a name a value. The first pass warns if the name had another one; in the second pass every
name is bound again. -/
def bind (state : State) (pass : Pass) (position : Position) (name : Name) (value : UInt16) :
    State × List Diagnostic :=
  let warnings :=
    match pass, state.symbols.redefinition name value with
    | .one, .changed previous => [⟨.redefined name value previous, some position⟩]
    | _, _ => []
  ({ state with symbols := state.symbols.define name ⟨value, position⟩ }, warnings)

/-- Give a name a value, if there is one. -/
def bind? (state : State) (pass : Pass) (position : Position) (binding : Option (Name × UInt16)) :
    State × List Diagnostic :=
  match binding with
  | some (name, value) => state.bind pass position name value
  | none => (state, [])

/-- What a statement can see in a state. -/
def env (state : State) (options : Options) (pass : Pass) : Env :=
  { pass, listing := options.listing, symbols := state.symbols, here := state.here
    msb := state.msb }

/-- The state after an effect, apart from the value of a label. -/
def apply (state : State) (effect : Effect) : State :=
  { state with
    here := effect.origin.getD (state.here + effect.advance)
    msb := effect.msb.getD state.msb
    inDsect := effect.dsect.getD state.inDsect
    relocatable := state.relocatable || effect.relocatable
    symbols := effect.externals.foldl SymbolTable.declareExternal state.symbols
    externals := addNames state.externals effect.externals
    entries := addNames state.entries effect.entries }

end State

/-- Causes found at a statement; the first pass keeps them to itself. -/
def found (pass : Pass) (statement : Statement) (causes : List Cause) : List Diagnostic :=
  match pass with
  | .one => []
  | .two => causes.map fun cause => ⟨cause, some statement.position⟩

/-- What the listing shows of a statement. The location is shown if the line has a label or an
operation. -/
def listed (statement : Statement) (location : UInt16) (suppressed : Bool) (bytes : List UInt8)
    (value : Option UInt16) : Listing.Entry :=
  .record {
    location := if statement.operation.isSome || statement.label.isSome then some location else none
    bytes
    value
    suppressed
    line := statement.position.line
    text := statement.sourceText }

/-- An entry of the listing, made only if the pass and the options ask for one. -/
def entryWhen (options : Options) (pass : Pass) (entry : Unit → Option Listing.Entry) :
    Option Listing.Entry :=
  if options.listing ∧ pass = .two then entry () else none

/-! ### Conditional directives -/

/-- A conditional directive was processed. Its line counts as assembled if the block around it is
enabled. -/
def turned (options : Options) (pass : Pass) (state : State) (statement : Statement)
    (conditions : Conditions) (active : Bool) (causes : List Cause) : State × Report :=
  ({ state with conditions },
    { diagnostics := found pass statement causes
      entry := entryWhen options pass fun _ => listed statement state.here (!active) [] none })

/-- Open a conditional block. Nothing is reported in a disabled block. -/
def openBlock (options : Options) (pass : Pass) (state : State) (statement : Statement)
    (test : Test) (operand : Option Expr) : State × Report :=
  let env := state.env options pass
  let value := (operand.map fun expr => (env.evaluate expr).value).getD 0
  let causes :=
    match operand with
    | some expr => env.problems expr
    | none => [.conditionMissing (.opener test)]
  let active := state.conditions.enabled
  turned options pass state statement (state.conditions.enter (test.check value)) active
    (if active then causes else [])

/-- Turn to the other branch of a conditional block. -/
def turnBlock (options : Options) (pass : Pass) (state : State) (statement : Statement) :
    State × Report :=
  turned options pass state statement state.conditions.flip state.conditions.outerEnabled
    (if state.conditions.depth = 0 then [.strayOtherwise] else [])

/-- Close a conditional block. -/
def closeBlock (options : Options) (pass : Pass) (state : State) (statement : Statement) :
    State × Report :=
  turned options pass state statement state.conditions.leave state.conditions.outerEnabled []

/-! ### Other statements -/

/-- A statement in a disabled block has no effect. -/
def skipped (options : Options) (pass : Pass) (state : State) (statement : Statement) :
    State × Report :=
  (state, { entry := entryWhen options pass fun _ => listed statement state.here true [] none })

/-- The relocations of a statement at `here`. -/
def relocations (here : UInt16) (fixups : List Fixup) : List Relocation :=
  fixups.map fun fixup => ⟨here + UInt16.ofNat fixup.offset, fixup.size⟩

/-- The label of a statement with the location counter as its value; the label of an equate gets
its value from the operand. -/
def labelBinding (state : State) (statement : Statement) : Option (Name × UInt16) :=
  if statement.directive? = some .equ then none
  else statement.label.map fun label => (label, state.here)

/-- What an assembled statement puts into the listing: a listing directive what it asks for, any
other statement itself. A new origin is listed at the new location. -/
def assembledEntry (statement : Statement) (here : UInt16) (effect : Effect)
    (bytes : List UInt8) : Option Listing.Entry :=
  if (statement.directive?.map Directive.isListingControl).getD false then effect.entry
  else listed statement (effect.origin.getD here) false bytes effect.value

/-- A statement in an enabled block: its label gets the location, then it has its effect. Bytes and
relocations go to the output in the second pass, outside dummy sections. -/
def assembled (options : Options) (pass : Pass) (state : State) (statement : Statement)
    (decided : Option Layout) : State × Report :=
  let (labelled, labelWarnings) :=
    state.bind? pass statement.position (labelBinding state statement)
  let effect := Effect.ofStatement (labelled.env options pass) decided statement
  let (bound, equateWarnings) := labelled.bind? pass statement.position effect.binding
  let visible := pass = .two ∧ ¬ state.inDsect
  let bytes := if visible then effect.bytes else []
  (bound.apply effect,
    { layout := effect.layout
      bytes
      relocations :=
        if visible ∧ state.relocatable then relocations state.here effect.fixups else []
      diagnostics := labelWarnings ++ equateWarnings ++ found pass statement effect.problems
      entry := entryWhen options pass fun _ => assembledEntry statement state.here effect bytes })

/-- Process a statement, given what the first pass decided on its layout. -/
def step (options : Options) (pass : Pass) (state : State) (item : Statement × Option Layout) :
    State × Report :=
  let (statement, decided) := item
  match statement.operation with
  | some (.directive (.opener test) operand) => openBlock options pass state statement test operand
  | some (.directive .otherwise _) => turnBlock options pass state statement
  | some (.directive .fin _) => closeBlock options pass state statement
  | _ =>
    if state.conditions.enabled then assembled options pass state statement decided
    else skipped options pass state statement

end Assembly

end Asm6502
