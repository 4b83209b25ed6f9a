import Archflow.Binary64.Text

/-!
JSON trees and their compact text. Objects keep the order of their members. Numbers are kept digit
by digit, so that a reader decides what they mean.
-/
namespace Archflow

/-- A number as it is written. Without digits behind the point there is no point. -/
structure Numeral where
  negative : Bool
  whole : Nat
  fraction : List Char := []
  exponent : Option Int := none
deriving DecidableEq, Repr

namespace Numeral

def ofInt (n : Int) : Numeral := { negative := n < 0, whole := n.natAbs }

def ofNat (n : Nat) : Numeral := { negative := false, whole := n }

/-- The sign of an exponent is always written. -/
def exponentText (exponent : Int) : String :=
  (if exponent < 0 then "e-" else "e+") ++ Binary64.digitText exponent.natAbs

def text (numeral : Numeral) : String :=
  (if numeral.negative then "-" else "") ++ Binary64.digitText numeral.whole ++
    (if numeral.fraction.isEmpty then "" else "." ++ String.ofList numeral.fraction) ++
    (numeral.exponent.map exponentText).getD ""

end Numeral

inductive Json where
  | null
  | bool (b : Bool)
  | number (numeral : Numeral)
  | text (s : String)
  | array (items : List Json)
  | object (members : List (String × Json))
  /-- Text that has the form of a value but cannot be taken in: a string with half of a surrogate
  pair, or too many nested containers. It is only accepted where it is not looked at. -/
  | unreadable
deriving Repr

namespace Json

instance : Inhabited Json := ⟨.null⟩

private def hexDigits (n : Nat) : List Char :=
  let digits := Nat.toDigits 16 n
  List.replicate (4 - digits.length) '0' ++ digits

/-- How a character is written in a string: quotation marks, backslashes and the control characters
below the space are escaped, and no others. -/
def escapedChar (c : Char) : String :=
  if c = '"' then "\\\""
  else if c = '\\' then "\\\\"
  else if c.toNat = 8 then "\\b"
  else if c.toNat = 9 then "\\t"
  else if c.toNat = 10 then "\\n"
  else if c.toNat = 12 then "\\f"
  else if c.toNat = 13 then "\\r"
  else if c.toNat < 0x20 then "\\u" ++ String.ofList (hexDigits c.toNat)
  else c.toString

def stringText (s : String) : String := "\"" ++ String.join (s.toList.map escapedChar) ++ "\""

mutual

def render : Json → String
  | .null | .unreadable => "null"
  | .bool b => if b then "true" else "false"
  | .number numeral => numeral.text
  | .text s => stringText s
  | .array items => "[" ++ ",".intercalate (renderItems items) ++ "]"
  | .object members => "\x7b" ++ ",".intercalate (renderMembers members) ++ "\x7d"
termination_by structural json => json

def renderItems : List Json → List String
  | [] => []
  | item :: rest => item.render :: renderItems rest
termination_by structural items => items

def renderMembers : List (String × Json) → List String
  | [] => []
  | (name, value) :: rest => (stringText name ++ ":" ++ value.render) :: renderMembers rest
termination_by structural members => members

end

mutual

/-- How many containers are nested in a tree, and one more. -/
def height : Json → Nat
  | .array items => heightItems items + 1
  | .object members => heightMembers members + 1
  | _ => 1
termination_by structural json => json

def heightItems : List Json → Nat
  | [] => 0
  | item :: rest => max item.height (heightItems rest)
termination_by structural items => items

def heightMembers : List (String × Json) → Nat
  | [] => 0
  | (_, value) :: rest => max value.height (heightMembers rest)
termination_by structural members => members

end

def ofList {α : Type} (encode : α → Json) (items : List α) : Json := .array (items.map encode)

/-- An absent item is written as null. -/
def ofOption {α : Type} (encode : α → Json) : Option α → Json
  | some item => encode item
  | none => .null

/-- An alternative with content, under its name. -/
def tagged (name : String) (content : Json) : Json := .object [(name, content)]

end Json
end Archflow
