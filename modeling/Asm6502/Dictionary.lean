import Asm6502.Assembly.Run

/-!
# Relocation dictionaries

A relocation dictionary tells a linker which parts of an object file depend on its place, which
names it needs and which names it offers.
-/

namespace Asm6502

/-- The linkage data of a program. -/
structure Dictionary where
  /-- The places that depend on where the program is loaded. -/
  relocations : List Relocation
  /-- The names that the program needs. -/
  externals : List Name
  /-- The names that the program offers, with their values as far as they are defined. -/
  entries : List (Name × Option UInt16)
  deriving DecidableEq, Repr

namespace Dictionary

/-- The linkage data of an artifact. -/
def ofArtifact (artifact : Artifact) : Dictionary :=
  { relocations := artifact.relocations
    externals := artifact.externals
    entries := artifact.entries.map fun name =>
      (name, (artifact.symbols.definition? name).map (·.value)) }

/-- The line of a relocation. -/
def relocationLine (relocation : Relocation) : String :=
  "RLD " ++ Text.dollar relocation.address ++ " " ++ Text.decimal relocation.size ++ "\n"

/-- The line of a name that the program needs. -/
def externalLine (name : Name) : String := "EXTRN " ++ name.text ++ "\n"

/-- The line of a name that the program offers. -/
def entryLine : Name × Option UInt16 → String
  | (name, some value) => "ENTRY " ++ name.text ++ " " ++ Text.dollar value ++ "\n"
  | (name, none) => "ENTRY " ++ name.text ++ "\n"

/-- The text of a dictionary: relocations, then names needed, then names offered. -/
def render (dictionary : Dictionary) : String :=
  String.join (dictionary.relocations.map relocationLine) ++
    String.join (dictionary.externals.map externalLine) ++
    String.join (dictionary.entries.map entryLine)

end Dictionary

end Asm6502
