import Archflow.Json.Value
import Archflow.Table

/-!
Decoders of JSON trees. A structure is an object with a member for each field, of which unknown ones
are ignored, or an array with all fields in order. An alternative is its name, or an object with that
single member.
-/
namespace Archflow.Json

variable {α β : Type}

def toText? : Json → Option String
  | .text s => some s
  | _ => none

def toList? (decode : Json → Option α) : Json → Option (List α)
  | .array items => items.mapM decode
  | _ => none

def toPair? (first : Json → Option α) (second : Json → Option β) : Json → Option (α × β)
  | .array [a, b] => do return (← first a, ← second b)
  | _ => none

/-- An object from names to items; the last item of a name stays. -/
def toTable? (decode : Json → Option α) : Json → Option (Table α)
  | .object members => do
      let entries ← members.mapM fun entry => do return (entry.1, ← decode entry.2)
      return .ofList entries
  | _ => none

def toOption? (decode : Json → Option α) : Json → Option (Option α)
  | .null => some none
  | json => (decode json).map some

/-- A member of an object; repeated members are refused. -/
def member? (members : List (String × Json)) (name : String) : Option (Option Json) :=
  match members.filter fun entry => entry.1 == name with
  | [] => some none
  | [(_, value)] => some (some value)
  | _ => none

def toFieldList? (names : List String) : Json → Option (List (Option Json))
  | .object members => names.mapM (member? members)
  | .array items => if items.length = names.length then some (items.map some) else none
  | _ => none

def required (decode : Json → Option α) : Option Json → Option α
  | some json => decode json
  | none => none

def optional (decode : Json → Option α) : Option Json → Option (Option α)
  | some json => toOption? decode json
  | none => some none

/-- The name of an alternative, with its content if it has one. -/
def toVariant? : Json → Option (String × Option Json)
  | .text name => some (name, none)
  | .object [(name, content)] => some (name, some content)
  | _ => none

/-- An alternative without content, which may be written as null. -/
def isUnit : Option Json → Bool
  | none | some .null => true
  | _ => false

def toChoice? (choices : List (String × α)) (json : Json) : Option α := do
  let (name, content) ← json.toVariant?
  let choice ← choices.find? fun choice => choice.1 == name
  if isUnit content then some choice.2 else none

end Archflow.Json
