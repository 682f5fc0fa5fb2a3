import Asm6502.Assembly.Step
import Asm6502.Trace

/-!
# Runs

A run takes all statements of a program through both passes. The second pass starts with the symbols
of the first and follows its decisions on the layout; everything else starts afresh.
-/

namespace Asm6502

/-- What a program assembles to. There is always an artifact, also for a program with errors. -/
structure Artifact where
  /-- The machine code. -/
  bytes : List UInt8 := []
  /-- The symbols. -/
  symbols : SymbolTable := {}
  /-- What was found wrong, in the order of finding. -/
  diagnostics : List Diagnostic := []
  /-- The program is relocatable. -/
  relocatable : Bool := false
  /-- The places that depend on where the program is loaded. -/
  relocations : List Relocation := []
  /-- The names defined elsewhere. -/
  externals : List Name := []
  /-- The names used elsewhere. -/
  entries : List Name := []
  /-- The listing, if one was asked for. -/
  listing : Option String := none

namespace Artifact

/-- The errors of a program. -/
def errors (artifact : Artifact) : List Diagnostic := artifact.diagnostics.filter (·.isError)

/-- The warnings of a program. -/
def warnings (artifact : Artifact) : List Diagnostic := artifact.diagnostics.filter (!·.isError)

end Artifact

namespace Assembly

/-- The state before the first statement. -/
def initial (options : Options) (symbols : SymbolTable) : State := { msb := options.msb, symbols }

/-- The first pass: the last state and the reports. -/
def passOne (options : Options) (statements : List Statement) : State × List Report :=
  trace (step options .one) (initial options {}) (statements.map (·, none))

/-- The second pass after a first one: the last state and the reports. -/
def passAfter (options : Options) (first : State × List Report) (statements : List Statement) :
    State × List Report :=
  trace (step options .two) (initial options first.1.symbols)
    (statements.zip (first.2.map (·.layout)))

/-- What is wrong with the program as a whole. -/
def closing (state : State) : List Diagnostic :=
  (if state.conditions.depth = 0 then []
    else [⟨.unclosedBlocks state.conditions.depth, none⟩]) ++
  (state.entries.filter (!state.symbols.isDefined ·)).map fun name => ⟨.undefinedEntry name, none⟩

/-- Assemble statements whose macros and included files are expanded. -/
def run (options : Options) (statements : List Statement) : Artifact :=
  let first := passOne options statements
  let (state, reports) := passAfter options first statements
  { bytes := reports.flatMap (·.bytes)
    symbols := state.symbols
    diagnostics :=
      first.2.flatMap (·.diagnostics) ++ reports.flatMap (·.diagnostics) ++ closing state
    relocatable := state.relocatable
    relocations := reports.flatMap (·.relocations)
    externals := state.externals
    entries := state.entries
    listing :=
      if options.listing then
        some ((Listing.ofEntries (reports.filterMap (·.entry))).render state.symbols)
      else none }

end Assembly

end Asm6502
