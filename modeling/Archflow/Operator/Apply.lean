import Archflow.Binary64.Remainder
import Archflow.Fault

/-!
What operators do to values. Integer arithmetic is exact or refused, real arithmetic must have a
finite result, and a sum with a text operand joins the texts of both.
-/
namespace Archflow

def int64? (n : Int) : Option Int64 :=
  if Int64.minValue.toInt ≤ n ∧ n ≤ Int64.maxValue.toInt then some (.ofInt n) else none

namespace ArithmeticOp

/-- The exact result of an operation on two integers, or the fault that it is out of range. -/
def exactly (op : ArithmeticOp) (a b : Int64) (result : Int) : Except Fault Value :=
  match int64? result with
  | some i => .ok (.int i)
  | none => .error (.arithmetic (.integerOverflow op a b))

/-- Arithmetic on integers. A quotient that is not whole is a real; a remainder has the sign of
the dividend, and is refused together with the quotient it belongs to. -/
def applyInt (op : ArithmeticOp) (a b : Int64) : Except Fault Value :=
  let m := a.toInt
  let n := b.toInt
  match op with
  | .add => op.exactly a b (m + n)
  | .sub => op.exactly a b (m - n)
  | .mul => op.exactly a b (m * n)
  | .div =>
      if n = 0 then .error (.arithmetic (.byZero op (.int a)))
      else if m.tmod n = 0 then op.exactly a b (m.tdiv n)
      else .ok (.real (Value.realOfInt a / Value.realOfInt b))
  | .mod =>
      if n = 0 then .error (.arithmetic (.byZero op (.int a)))
      else
        match int64? (m.tdiv n) with
        | some _ => op.exactly a b (m.tmod n)
        | none => .error (.arithmetic (.integerOverflow op a b))

def applyReal : ArithmeticOp → Float → Float → Float
  | .add, a, b => a + b
  | .sub, a, b => a - b
  | .mul, a, b => a * b
  | .div, a, b => a / b
  | .mod, a, b => Binary64.remainder a b

/-- A zero on the right is refused by division and remainder. -/
def refusesZero : ArithmeticOp → Bool
  | .div | .mod => true
  | _ => false

def apply (op : ArithmeticOp) (l r : Value) : Except Fault Value :=
  match l, r with
  | .int a, .int b => op.applyInt a b
  | _, _ =>
    match l.number?, r.number? with
    | some a, some b =>
      if op.refusesZero && b == 0.0 then .error (.arithmetic (.byZero op l))
      else
        let result := op.applyReal a b
        if Binary64.isFinite result then .ok (.real result)
        else .error (.arithmetic (.notFinite op l r))
    | _, _ => .error (.typeMismatch (.numericOperands op l r))

end ArithmeticOp

namespace Value

/-- A text as it is, any other value as it is shown. -/
def joinText : Value → String
  | .text s => s
  | value => value.render

def compareReals? (a b : Float) : Option Ordering :=
  if a < b then some .lt else if b < a then some .gt else if a == b then some .eq else none

/-- The order of two texts or two numbers. Numbers are compared as reals. -/
def compare? (l r : Value) : Option Ordering :=
  match l, r with
  | .text a, .text b => some (if a < b then .lt else if a = b then .eq else .gt)
  | _, _ =>
    match l.number?, r.number? with
    | some a, some b => compareReals? a b
    | _, _ => none

def expectBool (op : BinaryOp) (value : Value) : Except Fault Bool :=
  match value.bool? with
  | some b => .ok b
  | none => .error (.typeMismatch (.booleanOperand op value))

end Value

def BinaryOp.apply (op : BinaryOp) (l r : Value) : Except Fault Value :=
  match op with
  | .arithmetic .add =>
      if l.isText || r.isText then .ok (.text (l.joinText ++ r.joinText))
      else ArithmeticOp.add.apply l r
  | .arithmetic calculation => calculation.apply l r
  | .equal => .ok (.bool (l.looselyEquals r))
  | .unequal => .ok (.bool !(l.looselyEquals r))
  | .order relation =>
      match l.compare? r with
      | some ordering => .ok (.bool (relation.holds ordering))
      | none => .error (.typeMismatch (.incomparable l r))
  | .logic connective => do
      let a ← l.expectBool op
      let b ← r.expectBool op
      .ok (.bool (connective.apply a b))

def UnaryOp.apply : UnaryOp → Value → Except Fault Value
  | .not, .bool b => .ok (.bool !b)
  | .negate, .int i =>
      match int64? (-i.toInt) with
      | some j => .ok (.int j)
      | none => .error (.arithmetic (.negation i))
  | .negate, .real r => .ok (.real (-r))
  | op, value => .error (.typeMismatch (.unaryOperand op value))

end Archflow
