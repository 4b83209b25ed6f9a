import Archflow.Simulation.Deliver

/-!
Sending of values. A value that a port sends is also sent by the port of the composite that
delegates to it, and so on outwards. All ports of the chain must accept the value before any link
carries it.
-/
namespace Archflow

/-- The port that a composite delegates to the inner one and can send from, if there is one. -/
def Component.outerFor? (composite : Component) (inner : PortRef) : Option PortRef :=
  (composite.delegations.find? fun delegation =>
    delegation.inner == inner &&
      match composite.port? delegation.outer with
      | some port => port.direction.canSend
      | none => false).map fun delegation => ⟨composite.name, delegation.outer⟩

namespace Model

/-- The port through which a composite passes on what an inner port sends. The first composite in
order of names that has one decides. -/
def delegatingOuter? (model : Model) (inner : PortRef) : Option PortRef :=
  model.components.items.findSome? (·.outerFor? inner)

def checkSend (model : Model) (ref : PortRef) (value : Value) : Except Fault Unit := do
  let port ← model.resolve ref
  port.checkSend
  port.checkPayload model.symbols value

/-- Follow the delegations outwards from a port, along at most so many ports. -/
def chainFrom (model : Model) (limit : Nat) (value : Value) :
    (budget : Nat) → PortRef → Except Fault (List PortRef)
  | 0, _ => .error (.cascadeLimitExceeded limit)
  | budget + 1, ref => do
      model.checkSend ref value
      match model.delegatingOuter? ref with
      | none => pure [ref]
      | some outer => return ref :: (← model.chainFrom limit value budget outer)

/-- All ports that a value leaves from when a port sends it, from the inside out. -/
def sendChain (model : Model) (limit : Nat) (ref : PortRef) (value : Value) :
    Except Fault (List PortRef) :=
  model.chainFrom limit value (limit + 1) ref

end Model

namespace Simulation

def transmitAll (value : Value) : List Nat → Simulation → Simulation
  | [], sim => sim
  | index :: rest, sim =>
      if sim.halted then sim else transmitAll value rest (sim.transmit index value)

/-- Give all ports of a chain a value, then send it over all links that leave them. -/
def sendAlong (sim : Simulation) (chain : List PortRef) (value : Value) : Simulation :=
  let model := chain.foldl (fun model port => model.setPort port value) sim.model
  transmitAll value (chain.flatMap sim.wiring.linksFrom) { sim with model }

/-- Let a port send a value. If some port of its chain refuses it, nothing changes. -/
def send (sim : Simulation) (port : PortRef) (value : Value) : Except Fault Unit × Simulation :=
  match sim.model.sendChain sim.limit port value with
  | .error fault => (.error fault, sim)
  | .ok chain => (.ok (), sim.sendAlong chain value)

end Simulation
end Archflow
