import Asm6502.Diagnostic
import Asm6502.Macro.Call

/-!
# Macro expansion

Expansion removes the definitions from a source text and puts the lines of a macro's body in the
place of each call, again expanded. A macro is known from the end of its definition on. Lines keep
the number of the source line that they come from. Calls nest at most `maxMacroDepth` deep and
expand to at most `maxMacroLines` lines; what goes beyond is left out and reported.
-/

namespace Asm6502.Macro

/-- The lines expanded so far, and what was found wrong. -/
structure Expansion where
  /-- The lines. -/
  lines : Array SourceLine := #[]
  /-- The diagnostics. -/
  diagnostics : Array Diagnostic := #[]
  /-- How many lines of bodies were expanded. -/
  expanded : Nat := 0
  /-- The current call of the source text was reported as nested too deep. -/
  tooDeep : Bool := false
  /-- The expansion was reported as too long. -/
  tooLong : Bool := false

namespace Expansion

/-- Add a line. -/
def emit (expansion : Expansion) (number : Nat) (text : String) : Expansion :=
  { expansion with lines := expansion.lines.push ⟨number, text⟩ }

/-- Add a diagnostic. -/
def report (expansion : Expansion) (cause : Cause) (position : Position) : Expansion :=
  { expansion with diagnostics := expansion.diagnostics.push ⟨cause, some position⟩ }

/-- Report a call nested too deep, once for each call of the source text. -/
def reportTooDeep (expansion : Expansion) (number : Nat) (name : Name) : Expansion :=
  if expansion.tooDeep then expansion
  else { expansion.report (.macroTooDeep name) ⟨number, 1⟩ with tooDeep := true }

/-- Report an expansion to too many lines, once. -/
def reportTooLong (expansion : Expansion) (number : Nat) : Expansion :=
  if expansion.tooLong then expansion
  else { expansion.report .macroTooLong ⟨number, 1⟩ with tooLong := true }

/-- Add the line that gives the label of a call its value. -/
def emitLabel (expansion : Expansion) (number : Nat) (label : Option String) : Expansion :=
  match label with
  | some label => expansion.emit number (label ++ " EQU *")
  | none => expansion

end Expansion

/-- The lines that a call stands for, before they are expanded in turn. -/
def bodyOf (library : Library) (call : Call) : List String :=
  match library[call.name]? with
  | some definition => definition.body.map (substitute call.arguments)
  | none => []

/-- Expand a line, with room for calls nested `room` deep. -/
def expandLine (library : Library) (number : Nat) :
    (room : Nat) → Expansion → String → Expansion
  | 0, expansion, line =>
    match call? library line.toList with
    | none => expansion.emit number line
    | some call => expansion.reportTooDeep number call.name
  | room + 1, expansion, line =>
    match call? library line.toList with
    | none => expansion.emit number line
    | some call =>
      (bodyOf library call).foldl
        (fun expansion line =>
          if maxMacroLines ≤ expansion.expanded then expansion.reportTooLong number
          else
            expandLine library number room
              { expansion with expanded := expansion.expanded + 1 } line)
        (expansion.emitLabel number call.label)

/-- The state of expansion between two source lines. -/
structure State where
  /-- The macros defined so far. -/
  library : Library := {}
  /-- The macro whose definition is open. -/
  open? : Option Macro := none
  /-- The expansion so far. -/
  expansion : Expansion := {}

namespace State

/-- Close a definition; the last definition of a name counts. -/
def define (state : State) (definition : Macro) : State :=
  let expansion :=
    match state.library[definition.name]? with
    | some previous =>
      state.expansion.report (.macroRedefined definition.name previous.position) definition.position
    | none => state.expansion
  { library := state.library.insert definition.name definition, open? := none, expansion }

/-- Process a source line. -/
def step (state : State) (line : SourceLine) : State :=
  match state.open? with
  | some definition =>
    if closes line.text.toList then state.define definition
    else { state with open? := some { definition with body := definition.body ++ [line.text] } }
  | none =>
    match opens? line.text.toList with
    | some name => { state with open? := some { name, position := ⟨line.number, 1⟩ } }
    | none =>
      { state with
        expansion :=
          expandLine state.library line.number maxMacroDepth
            { state.expansion with tooDeep := false } line.text }

/-- Report a definition that is open at the end. -/
def finish (state : State) : Expansion :=
  match state.open? with
  | some definition =>
    state.expansion.report (.macroUnterminated definition.name) definition.position
  | none => state.expansion

end State

/-- The lines of a source text with all macros expanded, and what was found wrong. -/
def expand (source : String) : List SourceLine × List Diagnostic :=
  let expansion := ((Source.lines source).foldl State.step {}).finish
  (expansion.lines.toList, expansion.diagnostics.toList)

end Asm6502.Macro
