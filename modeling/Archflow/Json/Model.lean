import Archflow.Json.Syntax
import Archflow.Model
import Archflow.Session

/-!
The elements of models, whole models and inputs as JSON, in both directions.
-/
namespace Archflow

open Json (required optional toText? toList? toTable? toPair? toChoice?)

namespace Port

def toJson (port : Port) : Json :=
  .object [("name", .text port.name), ("direction", port.direction.toJson),
    ("component", .text port.component), ("ty", port.type.toJson),
    ("value", .ofOption Value.toJson port.value)]

def ofJson? (json : Json) : Option Port := do
  let [name, direction, component, type, value] ←
    json.toFieldList? ["name", "direction", "component", "ty", "value"] | none
  return {
    name := ← required toText? name
    direction := ← required Direction.ofJson? direction
    component := ← required toText? component
    type := ← required TypeRef.ofJson? type
    value := ← optional Json.toValue? value }

end Port

namespace PortDelegation

def toJson (delegation : PortDelegation) : Json :=
  .object [("outer", .text delegation.outer), ("inner", delegation.inner.toJson)]

def ofJson? (json : Json) : Option PortDelegation := do
  let [outer, inner] ← json.toFieldList? ["outer", "inner"] | none
  return ⟨← required toText? outer, ← required PortRef.ofJson? inner⟩

end PortDelegation

namespace Component

def toJson (component : Component) : Json :=
  .object [("name", .text component.name), ("type_name", .ofOption .text component.type),
    ("ports", .ofList Port.toJson component.ports),
    ("activities", .ofList .text component.activities),
    ("state", component.state.toJson Value.toJson),
    ("subcomponents", .ofList .text component.subcomponents),
    ("delegations", .ofList PortDelegation.toJson component.delegations)]

def ofJson? (json : Json) : Option Component := do
  let [name, type, ports, activities, state, subcomponents, delegations] ← json.toFieldList?
    ["name", "type_name", "ports", "activities", "state", "subcomponents", "delegations"] | none
  return {
    name := ← required toText? name
    type := ← optional toText? type
    ports := ← required (toList? Port.ofJson?) ports
    activities := ← required (toList? toText?) activities
    state := ← required (toTable? Json.toValue?) state
    subcomponents := ← required (toList? toText?) subcomponents
    delegations := ← required (toList? PortDelegation.ofJson?) delegations }

end Component

namespace Flow

def toJson (flow : Flow) : Json :=
  .object [("source", flow.source.toJson), ("target", flow.target.toJson), ("ty", flow.type.toJson)]

def ofJson? (json : Json) : Option Flow := do
  let [source, target, type] ← json.toFieldList? ["source", "target", "ty"] | none
  return ⟨← required PortRef.ofJson? source, ← required PortRef.ofJson? target,
    ← required TypeRef.ofJson? type⟩

end Flow

namespace Connector

def toJson (connector : Connector) : Json :=
  .object [("name", .text connector.name), ("flows", .ofList Flow.toJson connector.flows),
    ("transform", .ofOption .text connector.transform),
    ("constraint", .ofOption .text connector.constraint)]

def ofJson? (json : Json) : Option Connector := do
  let [name, flows, transform, constraint] ←
    json.toFieldList? ["name", "flows", "transform", "constraint"] | none
  return {
    name := ← required toText? name
    flows := ← required (toList? Flow.ofJson?) flows
    transform := ← optional toText? transform
    constraint := ← optional toText? constraint }

end Connector

namespace Param

def toJson (param : Param) : Json :=
  .object [("name", .text param.name), ("ty", param.type.toJson),
    ("default", .ofOption Value.toJson param.default)]

def ofJson? (json : Json) : Option Param := do
  let [name, type, default] ← json.toFieldList? ["name", "ty", "default"] | none
  return ⟨← required toText? name, ← required TypeRef.ofJson? type, ← optional Json.toValue? default⟩

end Param

namespace Action

def toJson (action : Action) : Json :=
  .object [("name", .text action.name), ("constraint", .ofOption .text action.constraint)]

def ofJson? (json : Json) : Option Action := do
  let [name, constraint] ← json.toFieldList? ["name", "constraint"] | none
  return ⟨← required toText? name, ← optional toText? constraint⟩

end Action

namespace PinDelegation

def toJson (delegation : PinDelegation) : Json :=
  .object [("pin", .text delegation.pin), ("port", .text delegation.port)]

def ofJson? (json : Json) : Option PinDelegation := do
  let [pin, port] ← json.toFieldList? ["pin", "port"] | none
  return ⟨← required toText? pin, ← required toText? port⟩

end PinDelegation

namespace Activity

def toJson (activity : Activity) : Json :=
  .object [("name", .text activity.name), ("inputs", .ofList Param.toJson activity.inputs),
    ("outputs", .ofList Param.toJson activity.outputs),
    ("actions", .ofList Action.toJson activity.actions),
    ("delegations", .ofList PinDelegation.toJson activity.delegations)]

def ofJson? (json : Json) : Option Activity := do
  let [name, inputs, outputs, actions, delegations] ←
    json.toFieldList? ["name", "inputs", "outputs", "actions", "delegations"] | none
  return {
    name := ← required toText? name
    inputs := ← required (toList? Param.ofJson?) inputs
    outputs := ← required (toList? Param.ofJson?) outputs
    actions := ← required (toList? Action.ofJson?) actions
    delegations := ← required (toList? PinDelegation.ofJson?) delegations }

end Activity

namespace Executable

def toJson (exe : Executable) : Json :=
  .object [("name", .text exe.name), ("params", .ofList Param.toJson exe.params),
    ("return_type", exe.returns.toJson), ("body", .ofList Stmt.toJson exe.body)]

def ofJson? (json : Json) : Option Executable := do
  let [name, params, returns, body] ←
    json.toFieldList? ["name", "params", "return_type", "body"] | none
  return {
    name := ← required toText? name
    params := ← required (toList? Param.ofJson?) params
    returns := ← required TypeRef.ofJson? returns
    body := ← required (toList? Stmt.ofJson?) body }

end Executable

namespace Constraint

def toJson (constraint : Constraint) : Json :=
  .object [("name", .text constraint.name), ("inputs", .ofList .text constraint.inputs),
    ("outputs", .ofList .text constraint.outputs),
    ("precondition", .ofOption Expr.toJson constraint.precondition),
    ("postcondition", .ofOption Expr.toJson constraint.postcondition)]

def ofJson? (json : Json) : Option Constraint := do
  let [name, inputs, outputs, precondition, postcondition] ←
    json.toFieldList? ["name", "inputs", "outputs", "precondition", "postcondition"] | none
  return {
    name := ← required toText? name
    inputs := ← required (toList? toText?) inputs
    outputs := ← required (toList? toText?) outputs
    precondition := ← optional Expr.ofJson? precondition
    postcondition := ← optional Expr.ofJson? postcondition }

end Constraint

namespace ControlMode

def choices : List (String × ControlMode) :=
  [("once", .once), ("several", .several), ("always", .always), ("perhaps", .perhaps)]

def toJson : ControlMode → Json
  | .once => .text "once"
  | .several => .text "several"
  | .always => .text "always"
  | .perhaps => .text "perhaps"

def ofJson? : Json → Option ControlMode := toChoice? choices

end ControlMode

namespace Protocol

def Action.toJson : Action → Json
  | .send port payload => .tagged "Send" (.object [("port", .text port), ("payload", payload.toJson)])
  | .receive port bind => .tagged "Receive" (.object [("port", .text port), ("bind", .ofOption .text bind)])

def Action.ofJson? (json : Json) : Option Action := do
  let (tag, some content) ← json.toVariant? | none
  match tag with
  | "Send" => do
      let [port, payload] ← content.toFieldList? ["port", "payload"] | none
      return .send (← required toText? port) (← required Expr.ofJson? payload)
  | "Receive" => do
      let [port, bind] ← content.toFieldList? ["port", "bind"] | none
      return .receive (← required toText? port) (← optional toText? bind)
  | _ => none

def toJson (protocol : Protocol) : Json :=
  .object [("name", .text protocol.name), ("component", .ofOption .text protocol.component),
    ("actions", .ofList Action.toJson protocol.actions), ("control", protocol.control.toJson)]

def ofJson? (json : Json) : Option Protocol := do
  let [name, component, actions, control] ←
    json.toFieldList? ["name", "component", "actions", "control"] | none
  return {
    name := ← required toText? name
    component := ← optional toText? component
    actions := ← required (toList? Action.ofJson?) actions
    control := ← required ControlMode.ofJson? control }

end Protocol

namespace Allocation

def toJson : Allocation → Json
  | .activity name target => .tagged "Activity" (.object [
      ("activity", .text name), ("target", .text target)])
  | .executable name action => .tagged "Executable" (.object [
      ("executable", .text name), ("action", .text action)])

def ofJson? (json : Json) : Option Allocation := do
  let (tag, some content) ← json.toVariant? | none
  match tag with
  | "Activity" => do
      let [name, target] ← content.toFieldList? ["activity", "target"] | none
      return .activity (← required toText? name) (← required toText? target)
  | "Executable" => do
      let [name, action] ← content.toFieldList? ["executable", "action"] | none
      return .executable (← required toText? name) (← required toText? action)
  | _ => none

end Allocation

namespace Model

def toJson (model : Model) : Json :=
  .object [("name", .text model.name), ("components", model.components.toJson Component.toJson),
    ("connectors", model.connectors.toJson Connector.toJson),
    ("activities", model.activities.toJson Activity.toJson),
    ("executables", model.executables.toJson Executable.toJson),
    ("constraints", model.constraints.toJson Constraint.toJson),
    ("protocols", model.protocols.toJson Protocol.toJson),
    ("flows", .ofList Flow.toJson model.flows),
    ("allocations", .ofList Allocation.toJson model.allocations),
    ("symbols", model.symbols.toJson)]

def ofJson? (json : Json) : Option Model := do
  let [name, components, connectors, activities, executables, constraints, protocols, flows,
      allocations, symbols] ← json.toFieldList? ["name", "components", "connectors", "activities",
    "executables", "constraints", "protocols", "flows", "allocations", "symbols"] | none
  return {
    name := ← required toText? name
    components := ← required (toTable? Component.ofJson?) components
    connectors := ← required (toTable? Connector.ofJson?) connectors
    activities := ← required (toTable? Activity.ofJson?) activities
    executables := ← required (toTable? Executable.ofJson?) executables
    constraints := ← required (toTable? Constraint.ofJson?) constraints
    protocols := ← required (toTable? Protocol.ofJson?) protocols
    flows := ← required (toList? Flow.ofJson?) flows
    allocations := ← required (toList? Allocation.ofJson?) allocations
    symbols := ← required SymbolTable.ofJson? symbols }

end Model

namespace Inputs

def toJson (inputs : Inputs) : Json :=
  .object [
    ("ports", .ofList (fun entry => .array [.text entry.1, entry.2.toJson]) inputs.ports),
    ("executables", inputs.executables.toJson (.ofList Value.toJson))]

/-- The fields of inputs. Trailing ones may be left out of an array. -/
def fieldList? (json : Json) : Option (List (Option Json)) :=
  match json with
  | .array items =>
      if items.length ≤ 2 then some ((items.map some ++ [none, none]).take 2) else none
  | _ => json.toFieldList? ["ports", "executables"]

/-- Inputs that are left out are empty. -/
def ofJson? (json : Json) : Option Inputs := do
  let [ports, executables] ← fieldList? json | none
  return {
    ports := ← match ports with
      | some ports => toList? (toPair? toText? Json.toValue?) ports
      | none => some []
    executables := ← match executables with
      | some executables => toTable? (toList? Json.toValue?) executables
      | none => some ∅ }

end Inputs
end Archflow
