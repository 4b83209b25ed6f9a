import Archflow.Expr

/-!
Protocols: the sends and receives that a component goes through, and how often it does.
-/
namespace Archflow

inductive ControlMode where
  | once
  | several
  | always
  | perhaps
deriving DecidableEq, Repr

/-- How often the actions are gone through, under a bound on what is not bounded otherwise. -/
def ControlMode.iterations (mode : ControlMode) (bound : Nat) : Nat :=
  match mode with
  | .once | .perhaps => 1
  | .several => min bound 3
  | .always => bound

namespace Protocol

inductive Action where
  | send (port : String) (payload : Expr)
  /-- The received value is bound to a name, if one is given. -/
  | receive (port : String) (bind : Option String)
deriving Repr

def Action.port : Action → String
  | .send port _ => port
  | .receive port _ => port

inductive Operation where
  | send
  | receive
deriving DecidableEq, Repr

def Operation.text : Operation → String
  | .send => "send"
  | .receive => "receive"

def Action.operation : Action → Operation
  | .send .. => .send
  | .receive .. => .receive

end Protocol

structure Protocol where
  name : String
  component : Option String
  actions : List Protocol.Action
  control : ControlMode
deriving Repr

def Protocol.owner (protocol : Protocol) : String := protocol.component.getD protocol.name

end Archflow
