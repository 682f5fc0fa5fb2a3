import Asm6502.Source
import Asm6502.Symbol.Name
import Asm6502.Text.Numeral
import Std.Data.TreeSet

/-!
# Symbol tables

A symbol table maps names to the value and the place of their last definition, and keeps the names
that are declared as defined elsewhere.
-/

namespace Asm6502

/-- What a name was last defined as, and where. -/
structure Definition where
  /-- The value. -/
  value : UInt16
  /-- The place of the definition. -/
  position : Position
  deriving DecidableEq, Repr

/-- What a definition does to earlier ones of its name. -/
inductive Redefinition where
  /-- The name had no definition. -/
  | new
  /-- The name had the same value. -/
  | same
  /-- The name had another value. -/
  | changed (previous : Definition)
  deriving DecidableEq, Repr

/-- What is known of a name. -/
inductive Meaning where
  /-- The name is defined. -/
  | defined (value : UInt16)
  /-- The name is defined elsewhere. -/
  | external
  /-- Nothing is known of the name. -/
  | undefined
  deriving DecidableEq, Repr

/-- The names of a program. -/
structure SymbolTable where
  /-- The last definition of each name. -/
  definitions : Std.TreeMap Name Definition := {}
  /-- The names declared as defined elsewhere. -/
  externals : Std.TreeSet Name := {}

namespace SymbolTable

/-- The definition of a name. -/
def definition? (table : SymbolTable) (name : Name) : Option Definition := table.definitions[name]?

/-- The name is defined. -/
def isDefined (table : SymbolTable) (name : Name) : Bool := (table.definition? name).isSome

/-- What is known of a name. A definition counts more than a declaration. -/
def meaning (table : SymbolTable) (name : Name) : Meaning :=
  match table.definition? name with
  | some definition => .defined definition.value
  | none => if table.externals.contains name then .external else .undefined

/-- Give a name a value; the last definition wins. -/
def define (table : SymbolTable) (name : Name) (definition : Definition) : SymbolTable :=
  { table with definitions := table.definitions.insert name definition }

/-- What defining a name with a value does to its earlier definition. -/
def redefinition (table : SymbolTable) (name : Name) (value : UInt16) : Redefinition :=
  match table.definition? name with
  | none => .new
  | some previous => if previous.value = value then .same else .changed previous

/-- Declare a name as defined elsewhere. -/
def declareExternal (table : SymbolTable) (name : Name) : SymbolTable :=
  { table with externals := table.externals.insert name }

/-- The defined names and their values, in the order of names. -/
def values (table : SymbolTable) : List (Name × UInt16) :=
  table.definitions.toList.map fun (name, definition) => (name, definition.value)

/-- The declared names that are not defined, in the order of names. -/
def unresolved (table : SymbolTable) : List Name :=
  table.externals.toList.filter (!table.isDefined ·)

/-- One line of a printed table: the name in sixteen columns, then what it is. -/
def row (name : Name) (content : String) : String :=
  String.ofList (name.text.toList.rightpad 16 ' ') ++ " = " ++ content ++ "\n"

/-- The printed table: the defined names, then the names defined elsewhere. -/
def render (table : SymbolTable) : String :=
  String.join (table.values.map fun (name, value) => row name (Text.dollar value)) ++
    String.join (table.unresolved.map (row · "EXTERNAL"))

/-! ### What definitions and declarations change -/

theorem definition?_define (table : SymbolTable) (name other : Name) (definition : Definition) :
    (table.define name definition).definition? other =
      if name = other then some definition else table.definition? other := by
  simp [define, definition?, Std.TreeMap.getElem?_insert, Std.LawfulEqCmp.compare_eq_iff_eq]

/-- A name means its last definition. -/
theorem meaning_define (table : SymbolTable) (name other : Name) (definition : Definition) :
    (table.define name definition).meaning other =
      if name = other then .defined definition.value else table.meaning other := by
  unfold meaning
  rw [definition?_define]
  by_cases same : name = other
  · simp [same]
  · simp [same, define]

@[simp] theorem definition?_declareExternal (table : SymbolTable) (name other : Name) :
    (table.declareExternal name).definition? other = table.definition? other := rfl

/-- Declaring a name changes only what is not defined. -/
theorem meaning_declareExternal (table : SymbolTable) (name other : Name) :
    (table.declareExternal name).meaning other =
      if name = other ∧ table.isDefined other = false then .external else table.meaning other := by
  unfold meaning isDefined
  rw [definition?_declareExternal]
  cases table.definition? other with
  | some definition => simp
  | none =>
    simp only [declareExternal, Std.TreeSet.contains_insert, beq_iff_eq,
      Std.LawfulEqCmp.compare_eq_iff_eq, Bool.or_eq_true, Option.isSome_none, and_true]
    by_cases same : name = other
    · simp [same]
    · simp [same]

end SymbolTable

end Asm6502
