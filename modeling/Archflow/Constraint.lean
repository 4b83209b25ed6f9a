import Archflow.Expr.Eval

/-!
Constraints on the values that go into and come out of a connector or an action. The first input
is also known as `input` and the first output as `output` and `result`, unless the constraint uses
these names itself.
-/
namespace Archflow

structure Constraint where
  name : String
  inputs : List String := []
  outputs : List String := []
  precondition : Option Expr := none
  postcondition : Option Expr := none
deriving Repr

/-- The text of a condition with names and fields replaced by their values, where they have one. -/
def Expr.renderEvaluated (expr : Expr) (env : Env) : String :=
  expr.renderWith fun node =>
    match node with
    | .variable _ | .field .. =>
      match node.eval env with
      | .ok value => some value.render
      | .error _ => none
    | _ => none

namespace Constraint

def env (constraint : Constraint) (symbols : SymbolTable) (inputs outputs : List Value) : Env :=
  let input := inputs.head?.toList.map (("input", ·))
  let output := outputs.head?.toList.flatMap fun value => [("output", value), ("result", value)]
  (Env.new symbols).bindAll
    (input ++ output ++ constraint.inputs.zip inputs ++ constraint.outputs.zip outputs)

def require (name : String) (condition : Expr) (env : Env) : Except Fault Unit := do
  let outcome ← condition.eval env
  if outcome = .bool true then .ok ()
  else .error (.constraintViolated name condition.render (condition.renderEvaluated env))

def requireIf (name : String) (condition : Option Expr) (env : Env) : Except Fault Unit :=
  match condition with
  | some condition => require name condition env
  | none => .ok ()

def checkPre (constraint : Constraint) (env : Env) : Except Fault Unit :=
  requireIf constraint.name constraint.precondition env

def checkPost (constraint : Constraint) (env : Env) : Except Fault Unit :=
  requireIf constraint.name constraint.postcondition env

/-- Demand both conditions, the precondition first. -/
def check (constraint : Constraint) (env : Env) : Except Fault Unit := do
  constraint.checkPre env
  constraint.checkPost env

end Constraint
end Archflow
