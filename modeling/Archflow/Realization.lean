import Archflow.Model

/-!
What realises the behaviour of a model: the executable behind each action, the functions that each
connector applies, and the activities of each component. The allocations of the model are resolved
once; those that cannot be resolved are reported.
-/
namespace Archflow

structure ConnectorFunctions where
  transform : Option String := none
  constraint : Option String := none
deriving DecidableEq, Repr

structure Realization where
  executables : Table String := ∅
  /-- The executables that some action or connector uses. -/
  referenced : List String := []
  connectors : Table ConnectorFunctions := ∅
  activities : Table (List String) := ∅

namespace Realization

/-- A realization with the allocations that could not be resolved, in order. -/
abbrev Resolved := Realization × List Fault

def report (resolved : Resolved) (fault : AllocationFault) : Resolved :=
  (resolved.1, resolved.2 ++ [.missingAllocation fault])

def actionExists (model : Model) (action : String) : Bool :=
  model.activities.items.any fun activity => activity.actions.any fun other => other.name == action

/-- Put an executable behind an action, in place of an earlier one. -/
def allocateExecutable (model : Model) (resolved : Resolved) (executable action : String) : Resolved :=
  if !model.executables.contains executable then
    report resolved (.executableMissing executable action)
  else if !actionExists model action then
    report resolved (.actionMissing action executable)
  else
    ({ resolved.1 with
        executables := resolved.1.executables.insert action executable
        referenced := executable :: resolved.1.referenced }, resolved.2)

def declareConnector (realization : Realization) (connector : Connector) : Realization :=
  { realization with
    referenced := connector.transform.toList ++ realization.referenced
    connectors := realization.connectors.insert connector.name
      ⟨connector.transform, connector.constraint⟩ }

/-- Fill the functions that a connector lacks from the first action of an activity. -/
def fillFunctions (realization : Realization) (activity : Activity) (functions : ConnectorFunctions) :
    ConnectorFunctions where
  transform := functions.transform <|>
    activity.actions.head?.bind fun action => realization.executables.get? action.name
  constraint := functions.constraint <|> activity.actions.head?.bind Action.constraint

/-- Let an activity be performed by a connector, or else by a component. -/
def allocateActivity (model : Model) (resolved : Resolved) (name target : String) : Resolved :=
  match model.activities.get? name with
  | none => report resolved (.activityMissing name target)
  | some activity =>
    let realization := resolved.1
    match realization.connectors.get? target with
    | some functions =>
        let functions := realization.fillFunctions activity functions
        ({ realization with connectors := realization.connectors.insert target functions }, resolved.2)
    | none =>
      match realization.activities.get? target with
      | some registered =>
          if registered.contains name then resolved
          else
            ({ realization with
                activities := realization.activities.insert target (registered ++ [name]) },
              resolved.2)
      | none => report resolved (.targetMissing name target)

/-- Resolve the allocations of a model: executables first, then activities. -/
def ofModel (model : Model) : Resolved :=
  let own : Realization := { activities := model.components.map fun _ component => component.activities }
  let (realization, problems) := model.allocations.foldl (fun resolved allocation =>
    match allocation with
    | .executable executable action => allocateExecutable model resolved executable action
    | .activity .. => resolved) (own, [])
  let declared := model.connectors.items.foldl declareConnector realization
  model.allocations.foldl (fun resolved allocation =>
    match allocation with
    | .activity activity target => allocateActivity model resolved activity target
    | .executable .. => resolved) (declared, problems)

def executableFor? (realization : Realization) (action : String) : Option String :=
  realization.executables.get? action

def functionsOf? (realization : Realization) (connector : String) : Option ConnectorFunctions :=
  realization.connectors.get? connector

def activitiesOf (realization : Realization) (component : String) : List String :=
  (realization.activities.get? component).getD []

def isReferenced (realization : Realization) (executable : String) : Bool :=
  realization.referenced.contains executable

end Realization
end Archflow
