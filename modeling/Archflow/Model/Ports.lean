import Archflow.Model

/-!
Checks on the ports of a model: that a reference leads to a port, that the port points the right
way, and that a value fits its type.
-/
namespace Archflow

namespace Port

def checkSend (port : Port) : Except Fault Unit :=
  if port.direction.canSend then .ok ()
  else .error (.invalidDirection port.ref.text port.direction.text "send")

def checkReceive (port : Port) : Except Fault Unit :=
  if port.direction.canReceive then .ok ()
  else .error (.invalidDirection port.ref.text port.direction.text "receive")

def checkPayload (port : Port) (symbols : SymbolTable) (value : Value) : Except Fault Unit :=
  symbols.check value port.type (.port port.ref)

end Port

namespace Model

def resolve (model : Model) (ref : PortRef) : Except Fault Port :=
  match model.components.get? ref.component with
  | none => .error (.unresolved (.component ref.component))
  | some component =>
    match component.port? ref.port with
    | none => .error (.unresolved (.port ref (component.ports.map Port.name)))
    | some port => .ok port

/-- A flow needs a source that can send and a target that can receive. -/
def checkFlow (model : Model) (flow : Flow) : Except Fault Unit := do
  (← model.resolve flow.source).checkSend
  (← model.resolve flow.target).checkReceive

end Model
end Archflow
