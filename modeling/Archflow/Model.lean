import Archflow.Constraint
import Archflow.Executable
import Archflow.Protocol

/-!
Architecture models: components with ports, connectors and flows between ports, the activities
that components perform, and the allocation of behaviour to structure.
-/
namespace Archflow

structure Port where
  name : String
  direction : Direction
  /-- The component that the port says it belongs to. -/
  component : String
  type : TypeRef
  value : Option Value := none
deriving Repr

def Port.ref (port : Port) : PortRef := ⟨port.component, port.name⟩

/-- A port of a composite that stands for a port of one of its subcomponents. -/
structure PortDelegation where
  outer : String
  inner : PortRef
deriving DecidableEq, Repr

structure Component where
  name : String
  type : Option String := none
  ports : List Port := []
  activities : List String := []
  state : Table Value := ∅
  subcomponents : List String := []
  delegations : List PortDelegation := []

def updateFirst {α : Type} (test : α → Bool) (change : α → α) : List α → List α
  | [] => []
  | item :: rest => if test item then change item :: rest else item :: updateFirst test change rest

namespace Component

def port? (component : Component) (name : String) : Option Port :=
  component.ports.find? fun port => port.name == name

def isComposite (component : Component) : Bool := !component.subcomponents.isEmpty

def setPort (component : Component) (name : String) (value : Value) : Component :=
  { component with
    ports := updateFirst (fun port => port.name == name) (fun port => { port with value := some value })
      component.ports }

def setState (component : Component) (key : String) (value : Value) : Component :=
  { component with state := component.state.insert key value }

end Component

structure Flow where
  source : PortRef
  target : PortRef
  type : TypeRef
deriving DecidableEq, Repr

structure Connector where
  name : String
  flows : List Flow := []
  transform : Option String := none
  constraint : Option String := none
deriving DecidableEq, Repr

structure Action where
  name : String
  constraint : Option String
deriving DecidableEq, Repr

/-- A pin of an activity that is fed from, or feeds, a port of another name. -/
structure PinDelegation where
  pin : String
  port : String
deriving DecidableEq, Repr

structure Activity where
  name : String
  inputs : List Param := []
  outputs : List Param := []
  actions : List Action := []
  delegations : List PinDelegation := []
deriving Repr

def Activity.portOfPin? (activity : Activity) (pin : String) : Option String :=
  (activity.delegations.find? fun delegation => delegation.pin == pin).map PinDelegation.port

inductive Allocation where
  | activity (activity target : String)
  | executable (executable action : String)
deriving DecidableEq, Repr

structure Model where
  name : String
  components : Table Component := ∅
  connectors : Table Connector := ∅
  activities : Table Activity := ∅
  executables : Table Executable := ∅
  constraints : Table Constraint := ∅
  protocols : Table Protocol := ∅
  flows : List Flow := []
  allocations : List Allocation := []
  symbols : SymbolTable := {}

namespace Model

instance : Inhabited Model := ⟨{ name := "" }⟩

def port? (model : Model) (ref : PortRef) : Option Port :=
  (model.components.get? ref.component).bind (·.port? ref.port)

def updateComponent (model : Model) (name : String) (change : Component → Component) : Model :=
  { model with components := model.components.modify name change }

/-- Give a port a value, if it exists. -/
def setPort (model : Model) (ref : PortRef) (value : Value) : Model :=
  model.updateComponent ref.component (·.setPort ref.port value)

def setState (model : Model) (component key : String) (value : Value) : Model :=
  model.updateComponent component (·.setState key value)

end Model
end Archflow
