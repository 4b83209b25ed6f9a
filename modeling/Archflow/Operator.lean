/-!
The operators of expressions. An expression keeps an operator as the token it was written with;
several tokens may mean the same operator, and a token may mean none.
-/
namespace Archflow

inductive ArithmeticOp where
  | add | sub | mul | div | mod
deriving DecidableEq, Repr

inductive OrderOp where
  | gt | lt | ge | le
deriving DecidableEq, Repr

inductive LogicOp where
  | and | or | implies
deriving DecidableEq, Repr

inductive BinaryOp where
  | arithmetic (op : ArithmeticOp)
  | order (op : OrderOp)
  | equal
  | unequal
  | logic (op : LogicOp)
deriving DecidableEq, Repr

inductive UnaryOp where
  | not
  | negate
deriving DecidableEq, Repr

namespace ArithmeticOp

def name : ArithmeticOp → String
  | .add => "Add"
  | .sub => "Sub"
  | .mul => "Mul"
  | .div => "Div"
  | .mod => "Mod"

end ArithmeticOp

namespace OrderOp

def name : OrderOp → String
  | .gt => "Gt"
  | .lt => "Lt"
  | .ge => "Ge"
  | .le => "Le"

def holds : OrderOp → Ordering → Bool
  | .gt, ordering => ordering == .gt
  | .lt, ordering => ordering == .lt
  | .ge, ordering => ordering != .lt
  | .le, ordering => ordering != .gt

end OrderOp

namespace LogicOp

def name : LogicOp → String
  | .and => "And"
  | .or => "Or"
  | .implies => "Implies"

def apply : LogicOp → Bool → Bool → Bool
  | .and, a, b => a && b
  | .or, a, b => a || b
  | .implies, a, b => !a || b

/-- The result, if the left operand alone decides it. -/
def decidedBy : LogicOp → Bool → Option Bool
  | .and, false => some false
  | .or, true => some true
  | .implies, false => some true
  | _, _ => none

/-- A left operand decides the result only if every right operand would give it. -/
theorem apply_of_decidedBy {op : LogicOp} {a c : Bool} (h : op.decidedBy a = some c) (b : Bool) :
    op.apply a b = c := by
  cases op <;> cases a <;> simp_all [decidedBy, apply]

/-- Where the left operand does not decide the result, the right operand is the result. -/
theorem apply_of_undecided {op : LogicOp} {a : Bool} (h : op.decidedBy a = none) (b : Bool) :
    op.apply a b = b := by
  cases op <;> cases a <;> simp_all [decidedBy, apply]

end LogicOp

namespace BinaryOp

def ofToken? (token : String) : Option BinaryOp :=
  match token with
  | "+" => some (.arithmetic .add)
  | "-" => some (.arithmetic .sub)
  | "*" => some (.arithmetic .mul)
  | "/" => some (.arithmetic .div)
  | "%" => some (.arithmetic .mod)
  | ">" => some (.order .gt)
  | "<" => some (.order .lt)
  | ">=" => some (.order .ge)
  | "<=" => some (.order .le)
  | "==" | "=" => some .equal
  | "!=" => some .unequal
  | "&&" | "and" => some (.logic .and)
  | "||" | "or" => some (.logic .or)
  | "implies" | "->" => some (.logic .implies)
  | _ => none

def name : BinaryOp → String
  | .arithmetic op => op.name
  | .order op => op.name
  | .equal => "Eq"
  | .unequal => "Ne"
  | .logic op => op.name

/-- How strongly an operator binds; a higher one binds first. -/
def precedence : BinaryOp → Nat
  | .logic .implies => 1
  | .logic .or => 2
  | .logic .and => 3
  | .equal | .unequal => 4
  | .order _ => 5
  | .arithmetic .add | .arithmetic .sub => 6
  | .arithmetic .mul | .arithmetic .div | .arithmetic .mod => 7

end BinaryOp

namespace UnaryOp

def ofToken? (token : String) : Option UnaryOp :=
  match token with
  | "!" | "not" => some .not
  | "-" => some .negate
  | _ => none

def name : UnaryOp → String
  | .not => "Not"
  | .negate => "Neg"

/-- Every unary operator binds more strongly than any binary one. -/
def precedence : Nat := 8

end UnaryOp

theorem BinaryOp.precedence_lt (op : BinaryOp) : op.precedence < UnaryOp.precedence := by
  unfold precedence UnaryOp.precedence
  split <;> omega

end Archflow
