import Asm6502.Expr
import Asm6502.File.Tree
import Asm6502.Operand
import Asm6502.Source
import Asm6502.Symbol.Table

/-!
# Diagnostics

A diagnostic is a cause and the place it was found at. The cause decides the kind, the severity and
the wording.
-/

namespace Asm6502

/-- How grave a diagnostic is. A program with errors is not written out. -/
inductive Severity where
  /-- The program can be used. -/
  | warning
  /-- The program cannot be used. -/
  | error
  deriving DecidableEq, Repr

/-- The kinds of diagnostics. -/
inductive DiagnosticKind where
  /-- A mnemonic that does not exist. -/
  | unknownOpcode
  /-- An operand that the mnemonic does not take. -/
  | invalidAddressingMode
  /-- An operand is missing. -/
  | missingOperand
  /-- A name without a definition. -/
  | undefinedSymbol
  /-- A name with two definitions. -/
  | duplicateSymbol
  /-- A quotient by zero. -/
  | divisionByZero
  /-- A layout that depends on a later definition. -/
  | forwardReference
  /-- A value too large for its place. -/
  | valueOutOfRange
  /-- A branch to a target too far away. -/
  | branchOutOfRange
  /-- A string too long for its length byte. -/
  | stringTooLong
  /-- A text that is not made of pairs of hexadecimal digits. -/
  | invalidHexDigits
  /-- Conditional directives that are not paired. -/
  | unbalancedConditional
  /-- An entry point without a definition. -/
  | undefinedEntry
  /-- An error that the program asks for. -/
  | userFailure
  /-- An included file that cannot be read. -/
  | includeFailed
  /-- A file that includes itself. -/
  | circularInclude
  /-- Macro calls nested too deep or expanded too far. -/
  | macroRecursion
  /-- A macro definition without an end. -/
  | unterminatedMacro
  deriving DecidableEq, Repr

/-- The most macro calls that may be nested in each other. -/
def maxMacroDepth : Nat := 16

/-- The most lines that macro calls may expand to. -/
def maxMacroLines : Nat := 100000

/-- The causes of diagnostics. -/
inductive Cause where
  /-- The mnemonic does not exist. -/
  | unknownMnemonic (mnemonic : String)
  /-- The operand has no form that can be read. -/
  | unreadableOperand (text : String)
  /-- The mnemonic does not exist without an operand. -/
  | operandNeeded (mnemonic : String)
  /-- The mnemonic has no mode for an operand of this form. -/
  | unsupportedForm (mnemonic : String) (form : Form)
  /-- The mnemonic does not have the mode. -/
  | unsupportedMode (mnemonic : String) (mode : Mode)
  /-- The operation has no operand. -/
  | operandMissing (operation : String)
  /-- The conditional directive has no operand. -/
  | conditionMissing (directive : Directive)
  /-- There is no label to give a value to. -/
  | labelMissing
  /-- The value list is empty. -/
  | valuesMissing
  /-- An item of the value list is no expression. -/
  | malformedValue (text : String)
  /-- The string directive has no string. -/
  | stringMissing (directive : Directive)
  /-- There are no hexadecimal digits. -/
  | hexMissing
  /-- The include directive names no file. -/
  | fileNameMissing
  /-- The name is not defined. -/
  | undefinedSymbol (name : Name)
  /-- The expression takes a quotient by zero. -/
  | divisionByZero (expr : Expr)
  /-- The directive was laid out with another value than it has now. -/
  | layoutChanged (directive : Directive) (laidOut value : UInt16)
  /-- The name gets another value than it had. -/
  | redefined (name : Name) (value : UInt16) (previous : Definition)
  /-- The macro is defined again. -/
  | macroRedefined (name : Name) (previous : Position)
  /-- The immediate value does not fit a byte. -/
  | immediateTruncated (value : UInt16)
  /-- The address is not in the zero page. -/
  | notZeroPage (value : UInt16)
  /-- The branch does not reach its target. -/
  | branchTooFar (source target : UInt16)
  /-- The string has more bytes than its length byte can tell. -/
  | stringTooLong (length : Nat)
  /-- The character is no hexadecimal digit. -/
  | badHexDigit (digit : Char)
  /-- The last hexadecimal digit has no partner. -/
  | oddHexDigits (text : String)
  /-- There is no block to turn to the other branch of. -/
  | strayOtherwise
  /-- Blocks are open at the end. -/
  | unclosedBlocks (count : Nat)
  /-- The entry point is not defined. -/
  | undefinedEntry (name : Name)
  /-- The program asks for an error. -/
  | userFailure (text : String)
  /-- The included file cannot be read. -/
  | includeFailed (path : String) (error : FileError)
  /-- The included file is being included already. -/
  | circularInclude (path : String)
  /-- Calls are nested too deep. -/
  | macroTooDeep (name : Name)
  /-- Calls expand to too many lines. -/
  | macroTooLong
  /-- The macro definition has no end. -/
  | macroUnterminated (name : Name)
  deriving DecidableEq, Repr

/-- How messages call the addressing that a written form asks for. -/
def Form.addressing : Form → String
  | .accumulator => "accumulator"
  | .immediate | .immediateLow | .immediateHigh => Mode.immediate.name
  | .absolute => Mode.absolute.name
  | .absoluteX => "X-indexed"
  | .absoluteY => "Y-indexed"
  | .indirect => Mode.indirect.name
  | .indirectX => Mode.indirectX.name
  | .indirectY => Mode.indirectY.name

namespace Cause

/-- The kind of a cause. -/
def kind : Cause → DiagnosticKind
  | .unknownMnemonic _ => .unknownOpcode
  | .unreadableOperand _ | .operandNeeded _ | .unsupportedForm _ _ | .unsupportedMode _ _ =>
    .invalidAddressingMode
  | .operandMissing _ | .conditionMissing _ | .labelMissing | .valuesMissing | .malformedValue _
  | .stringMissing _ | .hexMissing | .fileNameMissing => .missingOperand
  | .undefinedSymbol _ => .undefinedSymbol
  | .divisionByZero _ => .divisionByZero
  | .layoutChanged _ _ _ => .forwardReference
  | .redefined _ _ _ | .macroRedefined _ _ => .duplicateSymbol
  | .immediateTruncated _ | .notZeroPage _ => .valueOutOfRange
  | .branchTooFar _ _ => .branchOutOfRange
  | .stringTooLong _ => .stringTooLong
  | .badHexDigit _ | .oddHexDigits _ => .invalidHexDigits
  | .strayOtherwise | .unclosedBlocks _ => .unbalancedConditional
  | .undefinedEntry _ => .undefinedEntry
  | .userFailure _ => .userFailure
  | .includeFailed _ _ => .includeFailed
  | .circularInclude _ => .circularInclude
  | .macroTooDeep _ | .macroTooLong => .macroRecursion
  | .macroUnterminated _ => .unterminatedMacro

/-- The severity of a cause. -/
def severity : Cause → Severity
  | .redefined _ _ _ | .macroRedefined _ _ | .immediateTruncated _ | .strayOtherwise
  | .unclosedBlocks _ | .undefinedEntry _ => .warning
  | _ => .error

/-- The wording of a cause. -/
def message : Cause → String
  | .unknownMnemonic mnemonic => "unknown opcode " ++ mnemonic
  | .unreadableOperand text => "cannot understand operand " ++ text
  | .operandNeeded mnemonic => mnemonic ++ " needs an operand"
  | .unsupportedForm mnemonic form =>
    mnemonic ++ " does not support " ++ form.addressing ++ " addressing"
  | .unsupportedMode mnemonic mode => mnemonic ++ " does not support " ++ mode.name ++ " addressing"
  | .operandMissing operation => operation ++ " needs an operand"
  | .conditionMissing directive => directive.keyword ++ " needs a condition"
  | .labelMissing => "EQU needs a label"
  | .valuesMissing => "a list of values is needed"
  | .malformedValue text => "empty or malformed value in " ++ text
  | .stringMissing directive => directive.keyword ++ " needs a quoted string"
  | .hexMissing => "HEX needs some hex digits"
  | .fileNameMissing => "INCLUDE needs a file name"
  | .undefinedSymbol name => "undefined symbol " ++ name.text
  | .divisionByZero expr => "division by zero in " ++ expr.display
  | .layoutChanged directive laidOut value =>
    directive.keyword ++ " operand depends on a later definition (laid out as " ++
      Text.dollar laidOut ++ ", but it is " ++ Text.dollar value ++ ")"
  | .redefined name value previous =>
    name.text ++ " redefined as " ++ Text.dollar value ++ " (it was " ++
      Text.dollar previous.value ++ " at " ++ previous.position.display ++ ")"
  | .macroRedefined name previous =>
    "macro " ++ name.text ++ " redefined (previous definition at " ++ previous.display ++ ")"
  | .immediateTruncated value => "immediate value " ++ Text.dollar value ++ " truncated to 8 bits"
  | .notZeroPage value => Text.dollar value ++ " is not a zero-page address"
  | .branchTooFar source target =>
    "branch from " ++ Text.dollar source ++ " to " ++ Text.dollar target ++ " is out of range"
  | .stringTooLong length =>
    "string of " ++ Text.decimal length ++ " characters is too long for STR"
  | .badHexDigit digit => "'" ++ digit.toString ++ "' is not a hex digit"
  | .oddHexDigits text => "odd number of hex digits in " ++ text
  | .strayOtherwise => "ELSE without DO or IF"
  | .unclosedBlocks count => Text.decimal count ++ " conditional block(s) not closed by FIN"
  | .undefinedEntry name => "entry point " ++ name.text ++ " is never defined"
  | .userFailure text => if text.isEmpty then "FAIL" else "FAIL: " ++ text
  | .includeFailed path error => "cannot read include file " ++ path ++ ": " ++ error.message
  | .circularInclude path => "circular include of " ++ path
  | .macroTooDeep name =>
    "expansion of macro " ++ name.text ++ " is nested more than " ++ Text.decimal maxMacroDepth ++
      " deep"
  | .macroTooLong =>
    "macro expansion produces more than " ++ Text.decimal maxMacroLines ++ " lines"
  | .macroUnterminated name => "macro " ++ name.text ++ " has no ENDM"

end Cause

/-- A cause and the place it was found at. -/
structure Diagnostic where
  /-- What is wrong. -/
  cause : Cause
  /-- Where; none for what concerns the program as a whole. -/
  position : Option Position
  deriving DecidableEq, Repr

namespace Diagnostic

/-- The severity of a diagnostic. -/
def severity (diagnostic : Diagnostic) : Severity := diagnostic.cause.severity

/-- The kind of a diagnostic. -/
def kind (diagnostic : Diagnostic) : DiagnosticKind := diagnostic.cause.kind

/-- The diagnostic is an error. -/
def isError (diagnostic : Diagnostic) : Bool := diagnostic.severity == .error

/-- The diagnostic as it is printed: the place, the severity and the message. -/
def display (diagnostic : Diagnostic) : String :=
  let place :=
    match diagnostic.position with
    | some position => position.display ++ ": "
    | none => ""
  let severity :=
    match diagnostic.severity with
    | .warning => "warning: "
    | .error => "error: "
  place ++ severity ++ diagnostic.cause.message

end Diagnostic

end Asm6502
