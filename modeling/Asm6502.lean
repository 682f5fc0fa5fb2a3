import Asm6502.Main
import Asm6502.Proofs.Accounting
import Asm6502.Proofs.Arithmetic
import Asm6502.Proofs.Branches
import Asm6502.Proofs.Building
import Asm6502.Proofs.Contract
import Asm6502.Proofs.Cycles
import Asm6502.Proofs.Grammar
import Asm6502.Proofs.HandWritten
import Asm6502.Proofs.HexDigits
import Asm6502.Proofs.KeptLabels
import Asm6502.Proofs.Keywords
import Asm6502.Proofs.LetterCase
import Asm6502.Proofs.Lexemes
import Asm6502.Proofs.Limits
import Asm6502.Proofs.LinkNames
import Asm6502.Proofs.Location
import Asm6502.Proofs.Narrowing
import Asm6502.Proofs.Numerals
import Asm6502.Proofs.OpenBlocks
import Asm6502.Proofs.OperandForms
import Asm6502.Proofs.Parameters
import Asm6502.Proofs.Readback
import Asm6502.Proofs.Redefinition
import Asm6502.Proofs.Rejection
import Asm6502.Proofs.Relocation
import Asm6502.Proofs.Rows
import Asm6502.Proofs.Selection
import Asm6502.Proofs.Siblings
import Asm6502.Proofs.Strings
import Asm6502.Proofs.Sweep
import Asm6502.Proofs.SymbolHistory
import Asm6502.Proofs.Texts
import Asm6502.Proofs.TopBit
import Asm6502.Proofs.ValueLists
