import Archflow.Json

/-!
Reading of JSON text. The whole text must be one value, with blanks around it. Every step hands on
the rest of the text, and the nesting of values is bounded by its length.
-/
namespace Archflow.Json

/-- A step takes something off the front of a text, or fails. -/
abbrev Step (α : Type) := List Char → Option (α × List Char)

/-- Containers nested deeper than this are not taken in. -/
def maxNesting : Nat := 127

def isBlank (c : Char) : Bool := c = ' ' || c = '\n' || c = '\t' || c = '\r'

def skipBlanks (input : List Char) : List Char := input.dropWhile isBlank

def skipWord : List Char → List Char → Option (List Char)
  | [], input => some input
  | expected :: word, c :: input => if c = expected then skipWord word input else none
  | _ :: _, [] => none

/-- The digits at the front, of which there must be some. -/
def takeDigits (input : List Char) : Option (List Char × List Char) :=
  match input.span Char.isDigit with
  | ([], _) => none
  | (digits, rest) => some (digits, rest)

def digitsValue (digits : List Char) : Nat :=
  digits.foldl (fun n c => 10 * n + (c.toNat - '0'.toNat)) 0

/-- The digits before the point. Only a lone zero may start with zero. -/
def readWhole (input : List Char) : Option (Nat × List Char) :=
  match input with
  | '0' :: c :: rest => if c.isDigit then none else some (0, c :: rest)
  | _ => (takeDigits input).map fun (digits, rest) => (digitsValue digits, rest)

def readFraction (input : List Char) : Option (List Char × List Char) :=
  match input with
  | '.' :: rest => takeDigits rest
  | _ => some ([], input)

def readExponent (input : List Char) : Option (Option Int × List Char) :=
  match input with
  | c :: rest =>
      if c = 'e' || c = 'E' then
        let (negative, rest) := match rest with
          | '+' :: rest => (false, rest)
          | '-' :: rest => (true, rest)
          | _ => (false, rest)
        (takeDigits rest).map fun (digits, rest) =>
          let n : Int := digitsValue digits
          (some (if negative then -n else n), rest)
      else some (none, input)
  | [] => some (none, input)

def readNumeral (input : List Char) : Option (Numeral × List Char) := do
  let (negative, input) := match input with
    | '-' :: rest => (true, rest)
    | _ => (false, input)
  let (whole, input) ← readWhole input
  let (fraction, input) ← readFraction input
  let (exponent, input) ← readExponent input
  return (⟨negative, whole, fraction, exponent⟩, input)

def hexValue? (c : Char) : Option Nat :=
  if c.isDigit then some (c.toNat - '0'.toNat)
  else if 'a' ≤ c ∧ c ≤ 'f' then some (c.toNat - 'a'.toNat + 10)
  else if 'A' ≤ c ∧ c ≤ 'F' then some (c.toNat - 'A'.toNat + 10)
  else none

/-- What a string holds: a character, or a code unit that is written as four hexadecimal digits. -/
inductive Unit16 where
  | char (c : Char)
  | code (n : Nat)

def simpleEscape? (c : Char) : Option Char :=
  if c = '"' || c = '\\' || c = '/' then some c
  else if c = 'b' then some (Char.ofNat 8)
  else if c = 'f' then some (Char.ofNat 12)
  else if c = 'n' then some '\n'
  else if c = 'r' then some '\r'
  else if c = 't' then some '\t'
  else none

def readUnits : List Char → Option (List Unit16 × List Char)
  | [] => none
  | '"' :: rest => some ([], rest)
  | '\\' :: 'u' :: a :: b :: c :: d :: rest => do
      let a ← hexValue? a
      let b ← hexValue? b
      let c ← hexValue? c
      let d ← hexValue? d
      let (units, rest) ← readUnits rest
      return (.code (((a * 16 + b) * 16 + c) * 16 + d) :: units, rest)
  | '\\' :: c :: rest => do
      let c ← simpleEscape? c
      let (units, rest) ← readUnits rest
      return (.char c :: units, rest)
  | c :: rest =>
      if c.toNat < 0x20 then none
      else do
        let (units, rest) ← readUnits rest
        return (.char c :: units, rest)

def isHighSurrogate (n : Nat) : Bool := 0xd800 ≤ n && n < 0xdc00

def isLowSurrogate (n : Nat) : Bool := 0xdc00 ≤ n && n < 0xe000

/-- The characters of a string. Two halves of a surrogate pair make one character; a half alone
makes none. -/
def unitsText? : List Unit16 → Option (List Char)
  | [] => some []
  | .char c :: rest => (unitsText? rest).map (c :: ·)
  | .code high :: .code low :: rest =>
      if isHighSurrogate high && isLowSurrogate low then
        (unitsText? rest).map (Char.ofNat (0x10000 + (high - 0xd800) * 0x400 + (low - 0xdc00)) :: ·)
      else if isHighSurrogate high || isLowSurrogate high then none
      else (unitsText? (.code low :: rest)).map (Char.ofNat high :: ·)
  | .code n :: rest =>
      if isHighSurrogate n || isLowSurrogate n then none
      else (unitsText? rest).map (Char.ofNat n :: ·)

/-- A string behind its opening quotation mark; none if it cannot be taken in. -/
def readString (input : List Char) : Option (Option String × List Char) := do
  let (units, rest) ← readUnits input
  return ((unitsText? units).map String.ofList, rest)

mutual

/-- A value inside so many containers. The fuel bounds the length of the text. -/
def readValue (fuel depth : Nat) (input : List Char) : Option (Json × List Char) :=
  match fuel with
  | 0 => none
  | fuel + 1 =>
    match skipBlanks input with
    | '[' :: rest => do
        let (items, rest) ← match skipBlanks rest with
          | ']' :: rest => some ([], rest)
          | rest => readItems fuel (depth + 1) rest
        return (if maxNesting ≤ depth then .unreadable else .array items, rest)
    | '\x7b' :: rest => do
        let (members, rest) ← match skipBlanks rest with
          | '\x7d' :: rest => some (some [], rest)
          | rest => readMembers fuel (depth + 1) rest
        return (if maxNesting ≤ depth then .unreadable
          else (members.map Json.object).getD .unreadable, rest)
    | '"' :: rest => do
        let (s, rest) ← readString rest
        return ((s.map Json.text).getD .unreadable, rest)
    | 'n' :: rest => (skipWord ['u', 'l', 'l'] rest).map (Json.null, ·)
    | 't' :: rest => (skipWord ['r', 'u', 'e'] rest).map (Json.bool true, ·)
    | 'f' :: rest => (skipWord ['a', 'l', 's', 'e'] rest).map (Json.bool false, ·)
    | input => (readNumeral input).map fun (numeral, rest) => (.number numeral, rest)
termination_by structural fuel

/-- The items of an array, of which there is at least one, and the closing bracket. -/
def readItems (fuel depth : Nat) (input : List Char) : Option (List Json × List Char) :=
  match fuel with
  | 0 => none
  | fuel + 1 => do
      let (item, rest) ← readValue fuel depth input
      match skipBlanks rest with
      | ']' :: rest => return ([item], rest)
      | ',' :: rest => do
          let (items, rest) ← readItems fuel depth rest
          return (item :: items, rest)
      | _ => none
termination_by structural fuel

/-- The members of an object, of which there is at least one, and the closing brace. There are no
members to take in if some name cannot be taken in. -/
def readMembers (fuel depth : Nat) (input : List Char) :
    Option (Option (List (String × Json)) × List Char) :=
  match fuel with
  | 0 => none
  | fuel + 1 =>
    match skipBlanks input with
    | '"' :: rest => do
        let (name, rest) ← readString rest
        match skipBlanks rest with
        | ':' :: rest => do
            let (value, rest) ← readValue fuel depth rest
            let member := name.map (·, value)
            match skipBlanks rest with
            | '\x7d' :: rest => return (member.map ([·]), rest)
            | ',' :: rest => do
                let (members, rest) ← readMembers fuel depth rest
                return (member.bind fun member => members.map (member :: ·), rest)
            | _ => none
        | _ => none
    | _ => none
termination_by structural fuel

end

def parse? (input : String) : Option Json := do
  let chars := input.toList
  let (json, rest) ← readValue (chars.length + 1) 0 chars
  if (skipBlanks rest).isEmpty then some json else none

end Archflow.Json
