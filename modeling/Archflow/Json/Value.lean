import Archflow.Json.Number

/-!
Values as JSON. A value is written without a mark of its kind: enumeration literals as objects with
the members `enum` and `literal`, records as other objects, and the unknown value as null. A record
with texts under both names therefore reads back as an enumeration literal.
-/
namespace Archflow

namespace Value

mutual

def toJson : Value → Json
  | .bool b => .bool b
  | .int i => .number (.ofInt i.toInt)
  | .real r => .ofOption .number (Numeral.ofReal? r)
  | .text s => .text s
  | .literal enumeration name => .object [("enum", .text enumeration), ("literal", .text name)]
  | .record fields => .object (fieldsToJson fields)
  | .unknown => .null
termination_by structural value => value

def fieldsToJson : List (String × Value) → List (String × Json)
  | [] => []
  | (name, value) :: rest => (name, value.toJson) :: fieldsToJson rest
termination_by structural fields => fields

end

end Value

namespace Json

mutual

def isReadable : Json → Bool
  | .null | .bool _ | .text _ => true
  | .number numeral => numeral.value?.isSome
  | .array items => areReadable items
  | .object members => membersReadable members
  | .unreadable => false
termination_by structural json => json

def areReadable : List Json → Bool
  | [] => true
  | item :: rest => item.isReadable && areReadable rest
termination_by structural items => items

def membersReadable : List (String × Json) → Bool
  | [] => true
  | (_, value) :: rest => value.isReadable && membersReadable rest
termination_by structural members => members

end

/-- The member of a name that occurs once. -/
def onlyMember? (members : List (String × Json)) (name : String) : Option Json :=
  match members.filter fun entry => entry.1 == name with
  | [(_, value)] => some value
  | _ => none

/-- An object with texts under `enum` and `literal`, whatever else it has. -/
def enumeral? (members : List (String × Json)) : Option Value :=
  match onlyMember? members "enum", onlyMember? members "literal" with
  | some (.text enumeration), some (.text name) => some (.literal enumeration name)
  | _, _ => none

mutual

def toValueUnchecked? : Json → Option Value
  | .null => some .unknown
  | .bool b => some (.bool b)
  | .number numeral => numeral.value?
  | .text s => some (.text s)
  | .object members =>
    match enumeral? members with
    | some value => some value
    | none => (toFields? members).map Value.ofFields
  | .array _ | .unreadable => none
termination_by structural json => json

def toFields? : List (String × Json) → Option (List (String × Value))
  | [] => some []
  | (name, value) :: rest =>
    match toValueUnchecked? value, toFields? rest with
    | some value, some rest => some ((name, value) :: rest)
    | _, _ => none
termination_by structural members => members

end

/-- The value that a tree stands for. Arrays stand for none. -/
def toValue? (json : Json) : Option Value :=
  if json.isReadable then json.toValueUnchecked? else none

end Json
end Archflow
