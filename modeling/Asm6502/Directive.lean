import Asm6502.Text.Letter

/-!
# Directives

The directives of the assembly language, grouped by what they do, and the keywords they are written
with. Several keywords may stand for one directive; messages use the first of them.
-/

namespace Asm6502

/-- How the items of a value list are laid out. -/
inductive ValueShape where
  /-- Words, low byte first. -/
  | lowFirst
  /-- Words, high byte first. -/
  | highFirst
  /-- Single bytes. -/
  | byte
  deriving DecidableEq, Repr

/-- How the characters of a string become bytes. -/
inductive StringStyle where
  /-- One byte for each character. -/
  | plain
  /-- As `plain`, the last byte marked by its top bit. -/
  | marked
  /-- As `plain`, after a byte with the length. -/
  | counted
  /-- Inverse characters of the display. -/
  | inverse
  /-- Flashing characters of the display. -/
  | flashing
  /-- As `plain`, last byte first. -/
  | reversed
  deriving DecidableEq, Repr

/-- The test that opens a conditional block. -/
inductive Test where
  /-- The value is not zero. -/
  | holds
  /-- The value is not zero. -/
  | ne
  /-- The value is zero. -/
  | eq
  /-- The value is above zero. -/
  | gt
  /-- Always true: no value is below zero as an unsigned word. -/
  | ge
  /-- The value is negative as a signed word. -/
  | lt
  /-- The value is zero or negative as a signed word. -/
  | le
  deriving DecidableEq, Repr

/-- What a listing directive changes or prints. -/
inductive ListingControl where
  /-- Turn the listing on or off. -/
  | list
  /-- Show or hide statements in disabled blocks. -/
  | listDisabled
  /-- Start a page. -/
  | page
  /-- Skip lines. -/
  | skip
  /-- Print a rule. -/
  | rule
  /-- Set the character of rules. -/
  | ruleChar
  /-- Set and print the subtitle. -/
  | subtitle
  deriving DecidableEq, Repr

/-- The directives. -/
inductive Directive where
  /-- Set the location counter. -/
  | org
  /-- Give the label the value of the operand. -/
  | equ
  /-- A list of values. -/
  | values (shape : ValueShape)
  /-- A quoted string. -/
  | string (style : StringStyle)
  /-- Bytes in hexadecimal digits. -/
  | hex
  /-- Reserve zero bytes. -/
  | reserve
  /-- Start a dummy section, which moves the counter and produces nothing. -/
  | dsect
  /-- End the dummy section. -/
  | dend
  /-- Set the top bit of text bytes. -/
  | msb
  /-- Make the program relocatable. -/
  | rel
  /-- Declare names that other programs define. -/
  | externals
  /-- Declare names that other programs use. -/
  | entries
  /-- Open a conditional block. -/
  | opener (test : Test)
  /-- Turn to the other branch of a conditional block. -/
  | otherwise
  /-- Close a conditional block. -/
  | fin
  /-- Control the listing. -/
  | listing (control : ListingControl)
  /-- Put the statements of a file in this place. -/
  | includeFile
  /-- Report an error. -/
  | fail
  /-- Accepted and without effect; known by its keyword. -/
  | ignored (keyword : String)
  deriving DecidableEq, Repr

namespace Directive

/-- The keywords and what they stand for. -/
def keywords : List (String × Directive) := [
  ("ORG", .org), ("EQU", .equ), ("OBJ", .ignored "OBJ"),
  ("DA", .values .lowFirst), ("DW", .values .lowFirst), ("DDB", .values .highFirst),
  ("DB", .values .byte), ("DFB", .values .byte),
  ("ASC", .string .plain), ("DCI", .string .marked), ("STR", .string .counted),
  ("INV", .string .inverse), ("FLS", .string .flashing), ("REV", .string .reversed),
  ("HEX", .hex), ("DS", .reserve), ("DSECT", .dsect), ("DEND", .dend), ("MSB", .msb),
  ("REL", .rel), ("EXTRN", .externals), ("EXT", .externals), ("EXTN", .externals),
  ("ENTRY", .entries), ("ENT", .entries),
  ("DO", .opener .holds), ("IF", .opener .holds), ("ELSE", .otherwise), ("FIN", .fin),
  ("IFNE", .opener .ne), ("IFEQ", .opener .eq), ("IFGT", .opener .gt), ("IFGE", .opener .ge),
  ("IFLT", .opener .lt), ("IFLE", .opener .le),
  ("LST", .listing .list), ("LIST", .listing .list), ("LSTDO", .listing .listDisabled),
  ("PAGE", .listing .page), ("PAG", .listing .page), ("SKP", .listing .skip),
  ("REP", .listing .rule), ("CHR", .listing .ruleChar), ("SBTL", .listing .subtitle),
  ("TTL", .listing .subtitle),
  ("INCLUDE", .includeFile), ("PUT", .includeFile),
  ("MACRO", .ignored "MACRO"), ("MAC", .ignored "MACRO"),
  ("ENDM", .ignored "ENDM"), ("EOM", .ignored "ENDM"),
  ("FAIL", .fail), ("CHN", .ignored "CHN"), ("MACLIB", .ignored "MACLIB"),
  ("PAUSE", .ignored "PAUSE"), ("SAV", .ignored "SAV"), ("USE", .ignored "USE"),
  ("DSK", .ignored "DSK"), ("IBUFSIZ", .ignored "IBUFSIZ"), ("SBUFSIZ", .ignored "SBUFSIZ"),
  ("SW16", .ignored "SW16"), ("SET", .ignored "SET"), ("X6502", .ignored "X6502"),
  ("DATE", .ignored "DATE"), ("TIME", .ignored "TIME"), ("IDNUM", .ignored "IDNUM"),
  ("PMC", .ignored "PMC"), (">>>", .ignored "PMC"), ("CHK", .ignored "CHK"),
  ("USR", .ignored "USR")]

/-- The directive of a keyword, in any letter case. -/
def ofKeyword? (word : String) : Option Directive := keywords.lookup (Text.upper word)

/-- The first keyword of a directive. -/
def keyword : Directive → String
  | .org => "ORG"
  | .equ => "EQU"
  | .values .lowFirst => "DA"
  | .values .highFirst => "DDB"
  | .values .byte => "DB"
  | .string .plain => "ASC"
  | .string .marked => "DCI"
  | .string .counted => "STR"
  | .string .inverse => "INV"
  | .string .flashing => "FLS"
  | .string .reversed => "REV"
  | .hex => "HEX"
  | .reserve => "DS"
  | .dsect => "DSECT"
  | .dend => "DEND"
  | .msb => "MSB"
  | .rel => "REL"
  | .externals => "EXTRN"
  | .entries => "ENTRY"
  | .opener .holds => "DO"
  | .opener .ne => "IFNE"
  | .opener .eq => "IFEQ"
  | .opener .gt => "IFGT"
  | .opener .ge => "IFGE"
  | .opener .lt => "IFLT"
  | .opener .le => "IFLE"
  | .otherwise => "ELSE"
  | .fin => "FIN"
  | .listing .list => "LST"
  | .listing .listDisabled => "LSTDO"
  | .listing .page => "PAGE"
  | .listing .skip => "SKP"
  | .listing .rule => "REP"
  | .listing .ruleChar => "CHR"
  | .listing .subtitle => "SBTL"
  | .includeFile => "INCLUDE"
  | .fail => "FAIL"
  | .ignored keyword => keyword

/-- The directive opens a conditional block. -/
def isOpener : Directive → Bool
  | .opener _ => true
  | _ => false

/-- The directive opens, turns or closes a conditional block. Such directives are obeyed in
disabled blocks too, so that blocks stay paired. -/
def isConditional : Directive → Bool
  | .opener _ | .otherwise | .fin => true
  | _ => false

/-- The directive only shapes the listing. -/
def isListingControl : Directive → Bool
  | .listing _ => true
  | _ => false

/-- The directive has no effect. -/
def isIgnored : Directive → Bool
  | .ignored _ => true
  | _ => false

end Directive

end Asm6502
