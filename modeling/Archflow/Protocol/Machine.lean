import Archflow.Expr.Eval
import Archflow.Protocol

/-!
Execution of protocols over any store of ports. A machine keeps the values its receive actions have
bound, and the results of all actions so far; both outlive a run, so a later run goes on with them.
-/
namespace Archflow.Protocol

/-- What a protocol needs to know about the store that holds its ports. A failed send changes
nothing. -/
structure Access (σ : Type) where
  direction : σ → String → Option Direction
  current : σ → String → Option Value
  send : σ → String → Value → Except Fault σ

structure Result where
  iteration : Nat
  operation : Operation
  port : String
  value : Value
deriving DecidableEq, Repr

inductive Phase where
  | idle
  | running (iteration : Nat)
  | done
deriving DecidableEq, Repr

structure Machine where
  phase : Phase := .idle
  /-- The values that receive actions have bound. -/
  bindings : Table Value := ∅
  results : List Result := []
deriving DecidableEq

/-- Refuse an operation on a port that is missing or points the other way. -/
def permit (protocol : Protocol) (direction : Option Direction) (port : String)
    (operation : Operation) : Except Fault Unit :=
  match direction with
  | none => .error (.unresolved (.barePort port))
  | some direction =>
      let allowed := match operation with
        | .send => direction.canSend
        | .receive => direction.canReceive
      if allowed then .ok ()
      else .error (.invalidDirection (protocol.owner ++ "." ++ port) direction.text operation.text)

/-- Perform one action: its value, and the bindings and the store afterwards. A payload is evaluated
with the bindings made so far. -/
def perform {σ : Type} (protocol : Protocol) (access : Access σ) (symbols : SymbolTable)
    (action : Action) (bindings : Table Value) (store : σ) :
    Except Fault (Value × Table Value × σ) := do
  protocol.permit (access.direction store action.port) action.port action.operation
  match action with
  | .send port payload =>
      let value ← payload.eval ((Env.new symbols).bindAll bindings.toList)
      let store ← access.send store port value
      .ok (value, bindings, store)
  | .receive port bind =>
      let value := (access.current store port).getD .unknown
      match bind with
      | some name => .ok (value, bindings.insert name value, store)
      | none => .ok (value, bindings, store)

namespace Machine

variable {σ : Type}

def runActions (protocol : Protocol) (access : Access σ) (symbols : SymbolTable) (iteration : Nat) :
    List Action → Machine → σ → Except Fault Unit × Machine × σ
  | [], machine, store => (.ok (), machine, store)
  | action :: rest, machine, store =>
    match protocol.perform access symbols action machine.bindings store with
    | .error fault => (.error fault, machine, store)
    | .ok (value, bindings, store) =>
        let result : Result := ⟨iteration, action.operation, action.port, value⟩
        runActions protocol access symbols iteration rest
          { machine with bindings, results := machine.results ++ [result] } store

def runFrom (protocol : Protocol) (access : Access σ) (symbols : SymbolTable) (iteration : Nat) :
    (remaining : Nat) → Machine → σ → Except Fault Unit × Machine × σ
  | 0, machine, store => (.ok (), { machine with phase := .done }, store)
  | remaining + 1, machine, store =>
    match runActions protocol access symbols iteration protocol.actions
        { machine with phase := .running iteration } store with
    | (.ok (), machine, store) =>
        runFrom protocol access symbols (iteration + 1) remaining machine store
    | failed => failed

/-- Run a protocol as often as its control mode says, from the first iteration on. -/
def run (machine : Machine) (protocol : Protocol) (access : Access σ) (symbols : SymbolTable)
    (bound : Nat) (store : σ) : Except Fault Unit × Machine × σ :=
  runFrom protocol access symbols 0 (protocol.control.iterations bound) machine store

end Machine

/-- Run a protocol on a machine of its own: the results of all actions, or the fault of the one that
failed. -/
def execute {σ : Type} (protocol : Protocol) (access : Access σ) (symbols : SymbolTable) (bound : Nat)
    (store : σ) : Except Fault (List Result) × σ :=
  let (outcome, machine, store) := Machine.run {} protocol access symbols bound store
  (outcome.map fun () => machine.results, store)

end Archflow.Protocol
