import Archflow.Model

/-!
Containment between components. No component may contain itself, directly or through others; a
depth-first search looks for one that does.
-/
namespace Archflow.Model

/-- The components listed inside a component; one that is not declared has none. -/
def children (model : Model) (component : String) : List String :=
  match model.components.get? component with
  | some component => component.subcomponents
  | none => []

/-- Search below a component that is reached along `path`. The answer is the list of components whose
insides have been searched. Every step down meets a component that is not on the path, so a path has
at most one component more than there are declared ones, and a larger fuel changes nothing. -/
def searchContainment (model : Model) :
    (fuel : Nat) → (path finished : List String) → (component : String) → Except Fault (List String)
  | 0, _, finished, _ => .ok finished
  | fuel + 1, path, finished, component => do
      let path := component :: path
      let finished ← (model.children component).foldlM (fun finished child =>
        if path.contains child then
          throw (.invalidModel (.containsItself child component))
        else if finished.contains child then pure finished
        else model.searchContainment fuel path finished child) finished
      pure (component :: finished)

/-- Refuse a model in which some component contains itself. -/
def checkContainment (model : Model) : Except Fault Unit := do
  let _ ← model.components.keys.foldlM (fun finished component =>
    if finished.contains component then pure finished
    else model.searchContainment (model.components.size + 1) [] finished component) []

end Archflow.Model
