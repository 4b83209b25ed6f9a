import Archflow.Model.Validity

/-!
Models are built from declarations. A declaration is carried out step by step on the model under
construction: it looks things up, checks them and stores what is new. Where it fails, whatever it has
changed by then stays changed.
-/
namespace Archflow

inductive Declaration where
  | enumeration (name : String) (literals : List String)
  | datatype (name : String) (fields : List (String × TypeRef))
  | valueType (name : String) (base : TypeRef)
  | component (name : String)
  | componentType (component type : String)
  | port (component port : String) (direction : Direction) (type : TypeRef)
  | initial (port : PortRef) (value : Value)
  | subcomponent (parent child : String)
  | delegation (parent outer : String) (inner : PortRef)
  | connector (name : String) (transform constraint : Option String)
  | connection (connector : String) (flow : Flow)
  | flow (flow : Flow)
  | executable (executable : Executable)
  | constraint (constraint : Constraint)
  | activity (activity : Activity)
  | protocol (protocol : Protocol)
  | registration (component activity : String)
  | allocation (allocation : Allocation)

namespace Model

def component (model : Model) (name : String) : Except Fault Component :=
  match model.components.get? name with
  | some component => .ok component
  | none => .error (.invalidModel (.componentNotDeclared name))

def putComponent (model : Model) (name : String) (component : Component) : Model :=
  { model with components := model.components.insert name component }

/-- Declare a component; declaring it again changes nothing. -/
def addComponent (model : Model) (name : String) : Model :=
  if model.components.contains name then model else model.putComponent name { name }

/-- Declare a connector, or change the functions of one that is declared. -/
def addConnector (model : Model) (name : String) (transform constraint : Option String) : Model :=
  let connector := (model.connectors.get? name).getD { name }
  { model with connectors := model.connectors.insert name { connector with transform, constraint } }

end Model

/-- Steps on a model that may fail on the way. -/
abbrev Edit := ExceptT Fault (StateM Model)

namespace Edit

def setType (owner type : String) : Edit Unit := do
  let component ← (← get).component owner
  modify (·.putComponent owner { component with type := some type })

def addPort (owner name : String) (direction : Direction) (type : TypeRef) : Edit Unit := do
  let component ← (← get).component owner
  Model.demand (component.port? name).isNone (.portDeclaredTwice name owner)
  let port : Port := { name, direction, component := owner, type }
  modify (·.putComponent owner { component with ports := component.ports ++ [port] })

/-- Give a port its value at the start. The value has to fit the port as things are declared now. -/
def setInitial (ref : PortRef) (value : Value) : Edit Unit := do
  let model ← get
  match model.port? ref with
  | none => throw (.invalidModel (.portNotDeclared ref))
  | some port =>
      port.checkPayload model.symbols value
      modify (·.setPort ref value)

def addSubcomponent (parent child : String) : Edit Unit := do
  let model ← get
  Model.demand (model.components.contains child) (.subcomponentNotDeclared child)
  let component ← model.component parent
  modify (·.putComponent parent
    { component with subcomponents := component.subcomponents ++ [child] })

def addDelegation (parent outer : String) (inner : PortRef) : Edit Unit := do
  let composite ← (← get).component parent
  Model.demand (composite.port? outer).isSome (.noOuterPort parent outer)
  Model.demand (composite.subcomponents.contains inner.component)
    (.notSubcomponent inner.component parent)
  modify (·.putComponent parent
    { composite with delegations := composite.delegations ++ [⟨outer, inner⟩] })

def addConnection (name : String) (flow : Flow) : Edit Unit := do
  let model ← get
  model.checkFlow flow
  match model.connectors.get? name with
  | none => throw (.invalidModel (.connectorNotDeclared name))
  | some connector =>
      let connector := { connector with flows := connector.flows ++ [flow] }
      modify fun model => { model with connectors := model.connectors.insert name connector }

def addFlow (flow : Flow) : Edit Unit := do
  (← get).checkFlow flow
  modify fun model => { model with flows := model.flows ++ [flow] }

/-- Register an activity on a component, once. -/
def registerActivity (owner activity : String) : Edit Unit := do
  let component ← (← get).component owner
  unless component.activities.contains activity do
    modify (·.putComponent owner
      { component with activities := component.activities ++ [activity] })

def ofDeclaration : Declaration → Edit Unit
  | .enumeration name literals =>
      modify fun model => { model with symbols := model.symbols.addEnumeration name literals }
  | .datatype name fields =>
      modify fun model => { model with symbols := model.symbols.addDatatype name fields }
  | .valueType name base =>
      modify fun model => { model with symbols := model.symbols.addValueType name base }
  | .component name => modify (·.addComponent name)
  | .componentType owner type => setType owner type
  | .port owner name direction type => addPort owner name direction type
  | .initial ref value => setInitial ref value
  | .subcomponent parent child => addSubcomponent parent child
  | .delegation parent outer inner => addDelegation parent outer inner
  | .connector name transform constraint => modify (·.addConnector name transform constraint)
  | .connection connector flow => addConnection connector flow
  | .flow flow => addFlow flow
  | .executable item =>
      modify fun model => { model with executables := model.executables.insert item.name item }
  | .constraint item =>
      modify fun model => { model with constraints := model.constraints.insert item.name item }
  | .activity item =>
      modify fun model => { model with activities := model.activities.insert item.name item }
  | .protocol item =>
      modify fun model => { model with protocols := model.protocols.insert item.name item }
  | .registration component activity => registerActivity component activity
  | .allocation item =>
      modify fun model => { model with allocations := model.allocations ++ [item] }

end Edit

namespace Model

/-- Make a declaration. The model it leaves behind is part of the result, also if it fails. -/
def declare (model : Model) (declaration : Declaration) : Except Fault Unit × Model :=
  (Edit.ofDeclaration declaration).run.run model

/-- The model that declarations lead to, made one after another whether or not they fail. -/
def ofDeclarations (name : String) (declarations : List Declaration) : Model :=
  declarations.foldl (fun model declaration => (model.declare declaration).2) { name }

def build (model : Model) : Except Fault Model := do
  model.validate
  pure model

end Model
end Archflow
