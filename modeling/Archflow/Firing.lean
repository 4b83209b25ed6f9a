import Archflow.Realization

/-!
Firings: the execution of an activity that the arrival of a value on a port sets off. An activity
fires when it is interested in the port and all its inputs that come from ports have arrived.
-/
namespace Archflow

structure Firing where
  component : String
  activity : String
  executable : String
  constraint : Option String
  args : List Value
  /-- The state entry that the result goes to. -/
  outputKey : Option String
  /-- The port that the result is sent from. -/
  outputPort : Option PortRef
deriving DecidableEq, Repr

namespace Activity

/-- The port of a pin: the one it is delegated to, else the port of the same name. -/
def portFor? (activity : Activity) (component : Component) (pin : String) : Option String :=
  activity.portOfPin? pin <|> (component.port? pin).map Port.name

def inputPorts (activity : Activity) (component : Component) : List String :=
  (activity.inputs.filterMap fun param => activity.portFor? component param.name).filter fun port =>
    match component.port? port with
    | some port => port.direction.canReceive
    | none => false

/-- Does a value on the port matter? An activity without input ports follows every port. -/
def isInterested (activity : Activity) (component : Component) (port : String) : Bool :=
  let inputs := activity.inputPorts component
  inputs.isEmpty || inputs.contains port

/-- Have values arrived on all input ports? -/
def isReady (activity : Activity) (component : Component) : Bool :=
  (activity.inputPorts component).all component.state.contains

/-- The value of an input: what its port left in the state, else the state entry of its own name,
else its default. -/
def bindInput (activity : Activity) (component : Component) (symbols : SymbolTable) (param : Param) :
    Value :=
  ((activity.portFor? component param.name).bind component.state.get? <|>
    component.state.get? param.name).getD (param.initial symbols)

def bindInputs (activity : Activity) (component : Component) (symbols : SymbolTable) : List Value :=
  activity.inputs.map (activity.bindInput component symbols)

/-- The port that the first output is sent from, if its pin has a port that can send. -/
def outputPort? (activity : Activity) (component : Component) : Option PortRef := do
  let param ← activity.outputs.head?
  let name ← activity.portFor? component param.name
  let port ← component.port? name
  if port.direction.canSend then some ⟨component.name, name⟩ else none

end Activity

/-- The firing of an activity of a component that a value on a port sets off, if it sets off any. -/
def Model.fire? (model : Model) (realization : Realization) (component : Component)
    (name port : String) : Except Fault (Option Firing) :=
  match model.activities.get? name with
  | none => .error (.missingAllocation (.activityUnregistered name component.name))
  | some activity =>
    if !activity.isInterested component port || !activity.isReady component then .ok none
    else
      match activity.actions.head? with
      | none => .error (.missingAllocation (.noActions activity.name))
      | some action =>
        match realization.executableFor? action.name with
        | none => .error (.missingAllocation (.actionUnallocated action.name activity.name))
        | some executable => .ok (some {
            component := component.name
            activity := activity.name
            executable
            constraint := action.constraint
            args := activity.bindInputs component model.symbols
            outputKey := activity.outputs.head?.map Param.name
            outputPort := activity.outputPort? component })

end Archflow
