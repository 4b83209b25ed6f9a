import Archflow.Binary64.Shortest

/-!
Decimal text of floating-point numbers. What the digits are is decided in `Shortest`; a `Format`
fixes how they are laid out.
-/
namespace Archflow.Binary64

structure Format where
  /-- Which of two equally near shortest decimals is written. -/
  tie : Tie
  /-- Whole numbers are written with all their digits, not the fewest that read back. -/
  exactWhole : Bool

def digitText (n : Nat) : String := String.ofList (Nat.toDigits 10 n)

private def zeros (count : Nat) : String := String.ofList (List.replicate count '0')

/-- Text without an exponent; a whole number keeps one zero behind the point. -/
def Decimal.plainText (decimal : Decimal) : String :=
  let digits := Nat.toDigits 10 decimal.coefficient
  let point := digits.length + decimal.exponent
  if 0 ≤ decimal.exponent then
    String.ofList digits ++ zeros decimal.exponent.toNat ++ ".0"
  else if 0 < point then
    String.ofList (digits.take point.toNat) ++ "." ++ String.ofList (digits.drop point.toNat)
  else "0." ++ zeros (-point).toNat ++ String.ofList digits

def Format.magnitude (format : Format) (parts : Parts) : String :=
  if parts.significand = 0 then "0.0"
  else
    match format.exactWhole, parts.whole? with
    | true, some n => digitText n ++ ".0"
    | _, _ => (parts.shortest format.tie).plainText

def Format.text (format : Format) (x : Float) : String :=
  match kind x with
  | .nan => "NaN"
  | .infinite false => "inf"
  | .infinite true => "-inf"
  | .finite parts => (if parts.negative then "-" else "") ++ format.magnitude parts

end Archflow.Binary64
