/-!
A binary floating-point number taken apart: a finite number is `± significand * 2 ^ exponent`
for natural significands, so questions about its digits become questions about naturals.
-/
namespace Archflow.Binary64

def twoPow (n : Nat) : Nat := Nat.pow 2 n

def tenPow (n : Nat) : Nat := Nat.pow 10 n

/-- The finite number `± significand * 2 ^ exponent`. -/
structure Parts where
  negative : Bool
  significand : Nat
  exponent : Int
deriving DecidableEq, Repr

inductive Kind where
  | nan
  | infinite (negative : Bool)
  | finite (parts : Parts)
deriving DecidableEq, Repr

/-- The exponent of the least positive number. -/
def minExponent : Int := -1074

/-- The least significand of a normal number. -/
def hiddenBit : Nat := twoPow 52

def kind (x : Float) : Kind :=
  let bits : Nat := x.toBits.toNat
  let negative : Bool := bits / twoPow 63 % 2 = 1
  let biased : Nat := bits / twoPow 52 % twoPow 11
  let fraction : Nat := bits % twoPow 52
  if biased = 2047 then
    if fraction = 0 then .infinite negative else .nan
  else if biased = 0 then .finite ⟨negative, fraction, minExponent⟩
  else .finite ⟨negative, fraction + hiddenBit, (biased : Int) - 1 + minExponent⟩

def isFinite (x : Float) : Bool :=
  match kind x with
  | .finite _ => true
  | _ => false

/-- The number of a sign, a significand and an exponent. It is exact when the product is a
representable number; bits below the least representable one are dropped. -/
def ofParts (parts : Parts) : Float :=
  let sign := if parts.negative then twoPow 63 else 0
  if parts.significand = 0 then .ofBits (.ofNat sign)
  else
    let exponent := max (parts.exponent + Nat.log2 parts.significand - 52) minExponent
    let shifted :=
      parts.significand * twoPow (parts.exponent - exponent).toNat /
        twoPow (exponent - parts.exponent).toNat
    let field := if shifted < hiddenBit then shifted
      else (exponent - minExponent).toNat * hiddenBit + shifted
    .ofBits (.ofNat (sign + field))

/-- The exact whole value, for a finite number without a fractional part. -/
def Parts.whole? (parts : Parts) : Option Nat :=
  if parts.significand % twoPow (-parts.exponent).toNat = 0 then
    some (parts.significand * twoPow parts.exponent.toNat / twoPow (-parts.exponent).toNat)
  else none

end Archflow.Binary64
