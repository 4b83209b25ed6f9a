import Archflow.Entries
import Archflow.Binary64.Text

/-!
The values that ports carry and expressions compute. Integers have 64 bits, reals are binary
floating-point numbers, and the fields of a record are listed in increasing order of their names.
-/
namespace Archflow

inductive Value where
  | bool (b : Bool)
  | int (i : Int64)
  | real (r : Float)
  | text (s : String)
  /-- A literal of an enumeration; the name of the enumeration may be left empty. -/
  | literal (enumeration name : String)
  | record (fields : List (String × Value))
  /-- Stands where no value is known. -/
  | unknown
deriving Repr

namespace Value

instance : Inhabited Value := ⟨.unknown⟩

/-- The record with the given fields; of a repeated field the last one stays. -/
def ofFields (fields : List (String × Value)) : Value := .record (Entries.ofList fields)

def isNumeric : Value → Bool
  | .int _ | .real _ => true
  | _ => false

def isText : Value → Bool
  | .text _ => true
  | _ => false

def bool? : Value → Option Bool
  | .bool b => some b
  | _ => none

/-- The nearest real to an integer; a tie goes to the even neighbour. -/
def realOfInt (i : Int64) : Float := Float.ofInt i.toInt

def number? : Value → Option Float
  | .int i => some (realOfInt i)
  | .real r => some r
  | _ => none

def text? : Value → Option String
  | .text s => some s
  | _ => none

def field? (value : Value) (name : String) : Option Value :=
  match value with
  | .record fields => Entries.lookup name fields
  | _ => none

def kindName : Value → String
  | .bool _ => "Boolean"
  | .int _ => "Integer"
  | .real _ => "Real"
  | .text _ => "String"
  | .literal .. => "enum literal"
  | .record _ => "record"
  | .unknown => "unknown"

/-- Reals in messages never have an exponent, and whole ones keep all their digits. -/
def realFormat : Binary64.Format := ⟨.up, true⟩

mutual

def render : Value → String
  | .bool b => if b then "true" else "false"
  | .int i => toString i.toInt
  | .real r => realFormat.text r
  | .text s => "\"" ++ s ++ "\""
  | .literal enumeration name =>
      if enumeration.isEmpty then name else enumeration ++ "::" ++ name
  | .record fields => "\x7b" ++ ", ".intercalate (renderFields fields) ++ "\x7d"
  | .unknown => "unknown"
termination_by structural value => value

def renderFields : List (String × Value) → List String
  | [] => []
  | (name, value) :: rest => (name ++ " = " ++ value.render) :: renderFields rest
termination_by structural fields => fields

end

def cite (value : Value) : String := value.render ++ " (" ++ value.kindName ++ ")"

mutual

/-- Equality as expressions see it: numbers are compared as reals, and an enumeration literal
without the name of its enumeration equals one with the same name in any enumeration. -/
def looselyEquals : Value → Value → Bool
  | .bool a, .bool b => a == b
  | .text a, .text b => a == b
  | .unknown, .unknown => true
  | .literal e a, .literal f b => a == b && (e.isEmpty || f.isEmpty || e == f)
  | .record a, .record b => looselyEqualFields a b
  | v, w =>
      match v.number?, w.number? with
      | some a, some b => a == b
      | _, _ => false
termination_by structural value => value

def looselyEqualFields : List (String × Value) → List (String × Value) → Bool
  | [], [] => true
  | (key, value) :: rest, (key', value') :: rest' =>
      key == key' && value.looselyEquals value' && looselyEqualFields rest rest'
  | _, _ => false
termination_by structural fields => fields

end

mutual

def decEq : (v w : Value) → Decidable (v = w)
  | .bool a, w => by
      cases w
      case bool b => exact decidable_of_iff (a = b) (by simp)
      all_goals exact isFalse (by simp)
  | .int a, w => by
      cases w
      case int b => exact decidable_of_iff (a = b) (by simp)
      all_goals exact isFalse (by simp)
  | .real a, w => by
      cases w
      case real b => exact decidable_of_iff (a = b) (by simp)
      all_goals exact isFalse (by simp)
  | .text a, w => by
      cases w
      case text b => exact decidable_of_iff (a = b) (by simp)
      all_goals exact isFalse (by simp)
  | .literal a b, w => by
      cases w
      case literal c d => exact decidable_of_iff (a = c ∧ b = d) (by simp)
      all_goals exact isFalse (by simp)
  | .unknown, w => by
      cases w
      case unknown => exact isTrue rfl
      all_goals exact isFalse (by simp)
  | .record a, w =>
      match w with
      | .record b => @decidable_of_iff _ (a = b) (by simp) (decEqFields a b)
      | .bool _ | .int _ | .real _ | .text _ | .literal .. | .unknown => isFalse (by simp)
termination_by structural v => v

def decEqFields : (a b : List (String × Value)) → Decidable (a = b)
  | [], [] => isTrue rfl
  | [], _ :: _ => isFalse (by simp)
  | _ :: _, [] => isFalse (by simp)
  | (key, value) :: rest, (key', value') :: rest' =>
      match decEq value value', decEqFields rest rest' with
      | isTrue h, isTrue h' => decidable_of_iff (key = key') (by simp [h, h'])
      | isFalse h, _ => isFalse (by simp [h])
      | _, isFalse h' => isFalse (by simp [h'])
termination_by structural a => a

end

instance : DecidableEq Value := decEq

end Value
end Archflow
