import Asm6502.Listing.Row
import Asm6502.Symbol.Table

/-!
# Listings

A listing is built from entries: statements, and directives that print something or change what is
printed after them. At its end stands the symbol table.
-/

namespace Asm6502

namespace Listing

/-- What can be put into a listing. -/
inductive Entry where
  /-- Turn printing on or off. -/
  | setEnabled (on : Bool)
  /-- Show or hide statements in disabled blocks. -/
  | setShowSuppressed (on : Bool)
  /-- Start a page. -/
  | page
  /-- Skip lines. -/
  | skip (count : UInt16)
  /-- Print a rule. -/
  | rule (width : UInt16)
  /-- Set the character of rules. -/
  | setRuleChar (c : Char)
  /-- Set and print the subtitle. -/
  | subtitle (text : String)
  /-- List a statement. -/
  | record (statement : Record)
  deriving DecidableEq, Repr

/-- What is printed. -/
inductive Line where
  /-- A statement. -/
  | record (statement : Record)
  /-- A page break, with the subtitle at that time. -/
  | page (subtitle : Option String)
  /-- Empty lines. -/
  | blank (count : UInt16)
  /-- A rule. -/
  | rule (c : Char) (width : UInt16)
  /-- A subtitle. -/
  | subtitle (text : String)
  deriving DecidableEq, Repr

/-- A line as it is printed. -/
def Line.render : Line → String
  | .record statement => statement.render ++ "\n"
  | .page none => "\x0c"
  | .page (some text) => "\x0c" ++ text ++ "\n"
  | .blank count => String.ofList (List.replicate count.toNat '\n')
  | .rule c width => String.ofList (List.replicate width.toNat c) ++ "\n"
  | .subtitle text => text ++ "\n"

end Listing

/-- A listing: what is printed so far, and how to go on. -/
structure Listing where
  /-- The lines printed so far. -/
  lines : Array Listing.Line := #[]
  /-- Lines are printed. -/
  enabled : Bool := true
  /-- Statements in disabled blocks are printed. -/
  showSuppressed : Bool := true
  /-- The character of rules. -/
  ruleChar : Char := '-'
  /-- The subtitle. -/
  subtitle : Option String := none

namespace Listing

/-- Print a line, if printing is on. -/
def print (listing : Listing) (line : Line) : Listing :=
  if listing.enabled then { listing with lines := listing.lines.push line } else listing

/-- Put an entry into a listing. -/
def add (listing : Listing) : Entry → Listing
  | .setEnabled on => { listing with enabled := on }
  | .setShowSuppressed on => { listing with showSuppressed := on }
  | .page => listing.print (.page listing.subtitle)
  | .skip count => listing.print (.blank count)
  | .rule width => listing.print (.rule listing.ruleChar width)
  | .setRuleChar c => { listing with ruleChar := c }
  | .subtitle text => { listing with subtitle := some text }.print (.subtitle text)
  | .record statement =>
    if statement.suppressed && !listing.showSuppressed then listing
    else listing.print (.record statement)

/-- The listing of entries. -/
def ofEntries (entries : List Entry) : Listing := entries.foldl add {}

/-- The printed listing, with the symbol table at its end. -/
def render (listing : Listing) (symbols : SymbolTable) : String :=
  String.join (listing.lines.toList.map Line.render) ++ "\nSymbol Table:\n" ++ symbols.render

end Listing

end Asm6502
