import Archflow.Fault
import Archflow.Table

/-!
The types a model declares: enumerations, datatypes with named fields, and value types, which are
aliases of other types. A symbol table decides which values conform to a type and which value a
type starts from. Both questions follow at most `maxExpansions` aliases and fields in a row, so
they end on cyclic declarations too.
-/
namespace Archflow

structure SymbolTable where
  enumerations : Table (List String) := ∅
  datatypes : Table (List (String × TypeRef)) := ∅
  valueTypes : Table TypeRef := ∅
deriving DecidableEq

namespace SymbolTable

instance : Inhabited SymbolTable := ⟨{}⟩

/-- Declare an enumeration, in place of one with the same name. -/
def addEnumeration (symbols : SymbolTable) (name : String) (literals : List String) : SymbolTable :=
  { symbols with enumerations := symbols.enumerations.insert name literals }

def addDatatype (symbols : SymbolTable) (name : String) (fields : List (String × TypeRef)) :
    SymbolTable :=
  { symbols with datatypes := symbols.datatypes.insert name fields }

def addValueType (symbols : SymbolTable) (name : String) (base : TypeRef) : SymbolTable :=
  { symbols with valueTypes := symbols.valueTypes.insert name base }

def hasEnumeration (symbols : SymbolTable) (name : String) : Bool :=
  symbols.enumerations.contains name

def enumerationContains (symbols : SymbolTable) (name literal : String) : Bool :=
  match symbols.enumerations.get? name with
  | some literals => literals.contains literal
  | none => false

/-- The literal of the first enumeration, in order of names, that has it. -/
def resolveLiteral? (symbols : SymbolTable) (literal : String) : Option Value :=
  (symbols.enumerations.toList.find? fun entry => entry.2.contains literal).map fun entry =>
    .literal entry.1 literal

/-- How many aliases and fields are followed in a row. -/
def maxExpansions : Nat := 16

/-- Conformance with a bound on the types looked at in a row, the first one included. -/
def conformsWithin (symbols : SymbolTable) : Nat → Value → TypeRef → Bool
  | 0, _, _ => false
  | _ + 1, _, .any => true
  | _ + 1, .unknown, _ => false
  | _ + 1, .int _, .integer => true
  | _ + 1, value, .real => value.isNumeric
  | _ + 1, .bool _, .boolean => true
  | _ + 1, .text _, .text => true
  | budget + 1, value, .named name =>
      match symbols.valueTypes.get? name with
      | some base => symbols.conformsWithin budget value base
      | none =>
        match symbols.enumerations.get? name with
        | some literals =>
          match value with
          | .literal enumeration literal =>
              (enumeration.isEmpty || enumeration == name) && literals.contains literal
          | _ => false
        | none =>
          match symbols.datatypes.get? name with
          | some fields =>
            match value with
            | .record items => fields.all fun field =>
                match Entries.lookup field.1 items with
                | some item => symbols.conformsWithin budget item field.2
                | none => false
            | _ => false
          | none => true
  | _ + 1, _, _ => false

def conforms (symbols : SymbolTable) (value : Value) (type : TypeRef) : Bool :=
  symbols.conformsWithin (maxExpansions + 1) value type

def check (symbols : SymbolTable) (value : Value) (type : TypeRef) (slot : Slot) : Except Fault Unit :=
  if symbols.conforms value type then .ok ()
  else .error (.typeMismatch (.nonconforming slot type value))

/-- The value a type starts from, with a bound on the types looked at in a row. -/
def defaultWithin (symbols : SymbolTable) : Nat → TypeRef → Value
  | 0, _ => .unknown
  | _ + 1, .any => .unknown
  | _ + 1, .integer => .int 0
  | _ + 1, .real => .real 0.0
  | _ + 1, .boolean => .bool false
  | _ + 1, .text => .text ""
  | budget + 1, .named name =>
      match symbols.valueTypes.get? name with
      | some base => symbols.defaultWithin budget base
      | none =>
        match (symbols.enumerations.get? name).bind List.head? with
        | some first => .literal name first
        | none =>
          match symbols.datatypes.get? name with
          | some fields =>
              .ofFields (fields.map fun field => (field.1, symbols.defaultWithin budget field.2))
          | none => .unknown

def defaultFor (symbols : SymbolTable) (type : TypeRef) : Value :=
  symbols.defaultWithin (maxExpansions + 1) type

end SymbolTable
end Archflow
