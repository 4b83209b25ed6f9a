import Archflow.Binary64.Parts

/-!
The remainder of a division of floating-point numbers. It is computed without rounding: over a
common exponent the remainder of the significands is the remainder of the numbers, and it is
always representable.
-/
namespace Archflow.Binary64

/-- The remainder that division toward zero leaves. It has the sign of the dividend, also when
it is zero. -/
def remainder (dividend divisor : Float) : Float :=
  match kind dividend, kind divisor with
  | .finite a, .finite b =>
      let common := min a.exponent b.exponent
      let n := a.significand * twoPow (a.exponent - common).toNat
      let d := b.significand * twoPow (b.exponent - common).toNat
      if d = 0 then 0.0 / 0.0 else ofParts ⟨a.negative, n % d, common⟩
  | .finite _, .infinite _ => dividend
  | _, _ => 0.0 / 0.0

end Archflow.Binary64
