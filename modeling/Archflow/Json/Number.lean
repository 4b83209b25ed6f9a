import Archflow.Json
import Archflow.Operator.Apply

/-!
What numerals mean, and how numbers are written. A numeral without point and exponent is an integer
if it is in range. Any other numeral is a real: its leading digits, as many as fit in 64 bits, are
scaled by a power of ten.
-/
namespace Archflow

namespace Numeral

/-- Leading digits of a numeral as one number, with the power of ten to scale it by. -/
structure Scaled where
  significand : Nat
  exponent : Int

def maxSignificand : Nat := Binary64.twoPow 64 - 1

/-- Take in digits before the point. Once one does not fit, it and all digits behind it only count
as places. -/
def takeWhole : Scaled → List Nat → Scaled
  | scaled, [] => scaled
  | scaled, digit :: rest =>
      let next := scaled.significand * 10 + digit
      if maxSignificand < next then { scaled with exponent := scaled.exponent + (rest.length + 1) }
      else takeWhole { scaled with significand := next } rest

/-- Take in digits behind the point until one does not fit. -/
def takeFraction : Scaled → List Nat → Scaled
  | scaled, [] => scaled
  | scaled, digit :: rest =>
      let next := scaled.significand * 10 + digit
      if maxSignificand < next then scaled
      else takeFraction ⟨next, scaled.exponent - 1⟩ rest

def digitValues (digits : List Char) : List Nat := digits.map fun c => c.toNat - '0'.toNat

def scaled (numeral : Numeral) : Scaled :=
  takeFraction (takeWhole ⟨0, 0⟩ (digitValues (Nat.toDigits 10 numeral.whole)))
    (digitValues numeral.fraction)

def maxPower : Nat := 308

def powerOfTen (n : Nat) : Float := Float.ofScientific 1 false n

/-- Scale a real by a power of ten. A result that is too large is refused. Reals that are too small
become zero after a few divisions, which the fuel allows for. -/
def scale (fuel : Nat) (x : Float) (exponent : Int) : Option Float :=
  if exponent.natAbs ≤ maxPower then
    if 0 ≤ exponent then
      let y := x * powerOfTen exponent.natAbs
      if Binary64.isFinite y then some y else none
    else some (x / powerOfTen exponent.natAbs)
  else if x == 0.0 then some x
  else if 0 ≤ exponent then none
  else
    match fuel with
    | 0 => some 0.0
    | fuel + 1 => scale fuel (x / powerOfTen maxPower) (exponent + maxPower)

/-- The largest exponent that is read; beyond it a number is zero or too large. -/
def maxExponent : Nat := Binary64.twoPow 31 - 1

def magnitude? (numeral : Numeral) : Option Float :=
  let digits := numeral.scaled
  let exponent := numeral.exponent.getD 0
  if maxExponent < exponent.natAbs then
    if digits.significand ≠ 0 && 0 < exponent then none else some 0.0
  else scale 4 (Float.ofNat digits.significand) (digits.exponent + exponent)

def real? (numeral : Numeral) : Option Float :=
  numeral.magnitude?.map fun x => if numeral.negative then -x else x

/-- A numeral without point and exponent. Zero with a sign is not an integer. -/
def int? (numeral : Numeral) : Option Int64 :=
  if numeral.fraction.isEmpty && numeral.exponent.isNone && !(numeral.negative && numeral.whole == 0)
  then int64? (if numeral.negative then -numeral.whole else numeral.whole)
  else none

/-- The value of a numeral: an integer if it can be one, else a real. -/
def value? (numeral : Numeral) : Option Value :=
  match numeral.int? with
  | some i => some (.int i)
  | none => numeral.real?.map Value.real

def ofPlain (negative : Bool) (decimal : Binary64.Decimal) : Numeral :=
  let unit := Binary64.tenPow (-decimal.exponent).toNat
  let scaled := decimal.coefficient * Binary64.tenPow decimal.exponent.toNat
  let places := max 1 (-decimal.exponent).toNat
  let fraction := Nat.toDigits 10 (scaled % unit)
  { negative
    whole := scaled / unit
    fraction := List.replicate (places - fraction.length) '0' ++ fraction }

/-- The digits of a decimal with an exponent, one digit before the point. -/
def ofExponential (negative : Bool) (decimal : Binary64.Decimal) : Numeral :=
  let digits := Nat.toDigits 10 decimal.coefficient
  { negative
    whole := (digitValues (digits.take 1)).headD 0
    fraction := digits.drop 1
    exponent := some (digits.length + decimal.exponent - 1) }

/-- Exponents of the leading digit from -5 to 15 are written without an exponent. -/
def isPlain (decimal : Binary64.Decimal) : Bool :=
  let exponent := Binary64.digitCount decimal.coefficient + decimal.exponent - 1
  exponent ≤ 15 ∧ -5 ≤ exponent

/-- The shortest numeral that reads back as a finite real. -/
def ofReal? (x : Float) : Option Numeral :=
  match Binary64.kind x with
  | .finite parts =>
      if parts.significand = 0 then some { negative := parts.negative, whole := 0, fraction := ['0'] }
      else
        let decimal := parts.shortest .even
        some (if isPlain decimal then ofPlain parts.negative decimal
          else ofExponential parts.negative decimal)
  | _ => none

end Numeral
end Archflow
