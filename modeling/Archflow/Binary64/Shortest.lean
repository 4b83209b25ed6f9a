import Archflow.Binary64.Parts

/-!
The shortest decimal that reads back as a given floating-point number. Every real in an interval
around the number rounds to it. For one digit, two digits and so on the two neighbours of the
number on that decimal grid are tested against the interval; the first grid with a hit gives the
digits, and of two hits the nearer one is taken.
-/
namespace Archflow.Binary64

/-- The number `coefficient * 10 ^ exponent`. -/
structure Decimal where
  coefficient : Nat
  exponent : Int
deriving DecidableEq, Repr

/-- Which of two equally near decimals is taken. -/
inductive Tie where
  | up
  | even
deriving DecidableEq, Repr

/-- The reals that round to a number, and the number itself, as multiples of `num / den`: the
value is `center`, the ends are `low` and `high`, and they count as inside when `closed`. -/
structure Interval where
  low : Nat
  center : Nat
  high : Nat
  closed : Bool
  num : Nat
  den : Nat

/-- The interval of a positive number. Below a power of two the neighbours are half as far
away as above it. -/
def Parts.interval (parts : Parts) : Interval where
  low := 4 * parts.significand -
    if parts.significand = hiddenBit ∧ minExponent < parts.exponent then 1 else 2
  center := 4 * parts.significand
  high := 4 * parts.significand + 2
  closed := parts.significand % 2 = 0
  num := twoPow (parts.exponent - 2).toNat
  den := twoPow (2 - parts.exponent).toNat

def digitCount (n : Nat) : Nat := (Nat.toDigits 10 n).length

/-- The place of the decimal point: `10 ^ (point - 1) ≤ n / d < 10 ^ point`. -/
def decimalPoint (n d : Nat) : Int :=
  if d ≤ n then digitCount (n / d) else 1 - (digitCount ((d - 1) / n) : Int)

/-- The multiple of `10 ^ exponent` nearest to the center among those in the interval that are
next to the center, if there is one. -/
def Interval.nearest? (range : Interval) (tie : Tie) (exponent : Int) : Option Nat :=
  let scale := range.num * tenPow (-exponent).toNat
  let unit := range.den * tenPow exponent.toNat
  let inside (multiple : Nat) : Bool :=
    let position := multiple * unit
    if range.closed then range.low * scale ≤ position ∧ position ≤ range.high * scale
    else range.low * scale < position ∧ position < range.high * scale
  let center := range.center * scale
  let below := center / unit
  match inside below, inside (below + 1) with
  | false, false => none
  | true, false => some below
  | false, true => some (below + 1)
  | true, true =>
      let twice := 2 * center
      let middle := (2 * below + 1) * unit
      if twice < middle then some below
      else if middle < twice then some (below + 1)
      else match tie with
        | .up => some (below + 1)
        | .even => some (if below % 2 = 0 then below else below + 1)

/-- Try grids of `count`, `count + 1`, … digits, at most `fuel` of them. -/
def Interval.search (range : Interval) (tie : Tie) (point : Int) : (fuel count : Nat) → Option Decimal
  | 0, _ => none
  | fuel + 1, count =>
      let exponent := point - count
      match range.nearest? tie exponent with
      | some coefficient => some ⟨coefficient, exponent⟩
      | none => range.search tie point fuel (count + 1)

def Decimal.trim (fuel : Nat) (decimal : Decimal) : Decimal :=
  match fuel with
  | 0 => decimal
  | fuel + 1 =>
      if decimal.coefficient ≠ 0 ∧ decimal.coefficient % 10 = 0 then
        Decimal.trim fuel ⟨decimal.coefficient / 10, decimal.exponent + 1⟩
      else decimal

/-- The decimal with the fewest digits that rounds to a positive number. Seventeen digits always
suffice. -/
def Parts.shortest (parts : Parts) (tie : Tie) : Decimal :=
  let range := parts.interval
  let point := decimalPoint (range.center * range.num) range.den
  match range.search tie point 17 1 with
  | some decimal => decimal.trim 18
  | none => ⟨parts.significand, parts.exponent⟩

end Archflow.Binary64
