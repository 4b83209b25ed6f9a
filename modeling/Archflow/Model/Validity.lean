import Archflow.Model.Containment
import Archflow.Model.Ports

/-!
Validity of whole models. A valid model has every element stored under its own name and no dangling
references, apart from allocations, which are resolved when the model is run.
-/
namespace Archflow.Model

/-- Accept a condition or refuse the model for the given reason. -/
def demand (condition : Bool) (fault : ModelFault) : Except Fault Unit :=
  if condition then .ok () else .error (.invalidModel fault)

def checkDelegation (model : Model) (key : String) (component : Component)
    (delegation : PortDelegation) : Except Fault Unit := do
  demand (component.subcomponents.contains delegation.inner.component)
    (.foreignDelegation key delegation.outer delegation.inner)
  discard (model.resolve delegation.inner)

def checkComponent (model : Model) (key : String) (component : Component) : Except Fault Unit := do
  demand (component.name == key) (.misnamedComponent key component.name)
  component.ports.forM fun port =>
    demand (port.component == key) (.misownedPort port.name key port.component)
  component.subcomponents.forM fun child =>
    demand (child != key && model.components.contains child) (.invalidSubcomponent key child)
  component.delegations.forM (model.checkDelegation key component)
  component.activities.forM fun activity =>
    demand (model.activities.contains activity) (.unknownActivity key activity)

def checkConnector (model : Model) (connector : Connector) : Except Fault Unit := do
  connector.flows.forM model.checkFlow
  connector.transform.forM fun transform =>
    demand (model.executables.contains transform) (.unknownTransform connector.name transform)
  connector.constraint.forM fun constraint =>
    demand (model.constraints.contains constraint) (.unknownConstraint connector.name constraint)

def checkProtocol (model : Model) (protocol : Protocol) : Except Fault Unit :=
  protocol.component.forM fun component =>
    demand (model.components.contains component) (.unknownProtocolComponent protocol.name component)

/-- Accept a model that can be run, else give the first reason not to. -/
def validate (model : Model) : Except Fault Unit := do
  model.components.toList.forM fun entry => model.checkComponent entry.1 entry.2
  model.checkContainment
  model.connectors.items.forM model.checkConnector
  model.flows.forM model.checkFlow
  model.protocols.items.forM model.checkProtocol

end Archflow.Model
