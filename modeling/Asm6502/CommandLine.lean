import Asm6502.Build

/-!
# The command line

The arguments of a build: the source file, the object file after `-o` or `--output`, and options.
The value of an option may also follow an equals sign.
-/

namespace Asm6502.CommandLine

/-- What the arguments say so far. -/
structure Arguments where
  /-- The source file. -/
  input : Option String := none
  /-- The object file. -/
  output : Option String := none
  /-- The options of assembly. -/
  options : Options := {}
  /-- Where included files are looked for. -/
  includeDirectory : Option String := none
  deriving DecidableEq, Repr

/-- Why arguments are refused. -/
inductive Misuse where
  /-- A required argument is missing. -/
  | missing (name : String)
  /-- An option has no value. -/
  | noValue (option : String)
  /-- An argument is not known. -/
  | unexpected (argument : String)
  deriving DecidableEq, Repr

/-- How to use the program. -/
def usage : String :=
  "Usage: asm6502 [--list] [--msb-on] [--include-dir DIR] -o OUTPUT INPUT"

/-- The misuse as it is shown. -/
def Misuse.message : Misuse → String
  | .missing name => "error: " ++ name ++ " is required\n" ++ usage
  | .noValue option => "error: a value is required for " ++ option ++ "\n" ++ usage
  | .unexpected argument => "error: unexpected argument " ++ argument ++ "\n" ++ usage

/-- An argument of the shape `--name=value` as two arguments. -/
def splitValue (argument : String) : List String :=
  match argument.toList with
  | '-' :: '-' :: rest =>
    match rest.span (· != '=') with
    | (name, _ :: value) => ["--" ++ String.ofList name, String.ofList value]
    | _ => [argument]
  | _ => [argument]

/-- Read arguments from left to right. -/
def read (arguments : Arguments) : List String → Except Misuse Arguments
  | [] => .ok arguments
  | "--list" :: rest =>
    read { arguments with options := { arguments.options with listing := true } } rest
  | "--msb-on" :: rest =>
    read { arguments with options := { arguments.options with msb := true } } rest
  | "-o" :: path :: rest | "--output" :: path :: rest =>
    read { arguments with output := some path } rest
  | "--include-dir" :: path :: rest => read { arguments with includeDirectory := some path } rest
  | argument :: rest =>
    if argument == "-o" || argument == "--output" || argument == "--include-dir" then
      .error (.noValue argument)
    else if argument.startsWith "-" || arguments.input.isSome then .error (.unexpected argument)
    else read { arguments with input := some argument } rest

/-- The build that arguments ask for. -/
def parse (arguments : List String) : Except Misuse Build.Request := do
  let found ← read {} (arguments.flatMap splitValue)
  match found.input, found.output with
  | none, _ => .error (.missing "INPUT")
  | _, none => .error (.missing "--output")
  | some input, some output =>
    .ok { input, output, options := found.options, includeDirectory := found.includeDirectory }

end Asm6502.CommandLine
