import Archflow.Env
import Archflow.Expr
import Archflow.Operator.Apply

/-!
Evaluation of expressions. The logical operators leave out their right operand where the left one
decides the result; all other operators evaluate the left operand first and then the right one.
-/
namespace Archflow

def Value.readField (value : Value) (name : String) : Except Fault Value :=
  match value with
  | .record fields =>
    match Entries.lookup name fields with
    | some item => .ok item
    | none => .error (.unresolved (.field value name))
  | _ => .error (.typeMismatch (.fieldOfNonRecord name value))

/-- The value of a port seen as an object: its own fields, and under `value` the current value
itself unless that is a record with such a field. -/
def Value.readPortField (current : Value) (name : String) : Except Fault Value :=
  if name = "value" && (current.field? "value").isNone then .ok current
  else current.readField name

namespace Env

/-- The value of a name: what it is bound to, else the enumeration literal of that name. -/
def resolve (env : Env) (name : String) : Except Fault Value :=
  match env.value? name with
  | some value => .ok value
  | none =>
    match env.symbols.resolveLiteral? name with
    | some value => .ok value
    | none => .error (.unresolved (.identifier name))

def resolveEnumeral (env : Env) (enumeration : Option String) (literal : String) :
    Except Fault Value :=
  match enumeration with
  | some name =>
      if env.symbols.enumerationContains name literal then .ok (.literal name literal)
      else if env.symbols.hasEnumeration name then
        .error (.unresolved (.enumerationLiteral name literal))
      else .error (.unresolved (.enumeration name))
  | none =>
    match env.symbols.resolveLiteral? literal with
    | some value => .ok value
    | none => .error (.unresolved (.looseLiteral literal))

def portOf? (env : Env) (expr : Expr) : Option Value :=
  match expr with
  | .variable name =>
    match env.lookup name with
    | some (.port _ current) => some (current.getD .unknown)
    | _ => none
  | _ => none

end Env

namespace Expr

mutual

def eval (env : Env) (expr : Expr) : Except Fault Value :=
  match expr with
  | .const value => .ok value
  | .enumeral enumeration literal => env.resolveEnumeral enumeration literal
  | .object type fields => do
      let value := Value.ofFields (← evalFields env fields)
      match type with
      | some name => env.symbols.check value (.ofName name) .objectLiteral
      | none => .ok ()
      .ok value
  | .variable name => env.resolve name
  | .field record name =>
    match env.portOf? record with
    | some current => current.readPortField name
    | none => do (← eval env record).readField name
  | .unary token operand => do
      let op ← UnaryOp.parse token
      op.apply (← eval env operand)
  | .binary token left right => do
      let op ← BinaryOp.parse token
      let l ← eval env left
      match op with
      | .logic connective =>
          let a ← l.expectBool op
          match connective.decidedBy a with
          | some b => .ok (.bool b)
          | none => do .ok (.bool (← (← eval env right).expectBool op))
      | _ => op.apply l (← eval env right)
termination_by structural expr

def evalFields (env : Env) : List (String × Expr) → Except Fault (List (String × Value))
  | [] => .ok []
  | (name, expr) :: rest => do
      let value ← eval env expr
      .ok ((name, value) :: (← evalFields env rest))
termination_by structural fields => fields

end

def holds (env : Env) (condition : Expr) : Except Fault Bool := do
  let value ← condition.eval env
  match value.bool? with
  | some b => .ok b
  | none => .error (.typeMismatch (.condition condition.render value))

end Expr
end Archflow
