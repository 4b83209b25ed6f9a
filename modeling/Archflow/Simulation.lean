import Archflow.Config
import Archflow.Firing
import Archflow.Model.Ports
import Archflow.Trace
import Archflow.Wiring

/-!
The state of a simulated model: the model with its current port values and component states, the
values under way, the components still to be woken up, and the trace so far.
-/
namespace Archflow

/-- A component to be woken up, with the ports that values arrived on, and how many reactions led
there. -/
structure Wakeup where
  component : String
  ports : List String
  depth : Nat
deriving DecidableEq, Repr

structure Simulation where
  model : Model
  wiring : Wiring
  realization : Realization
  /-- The allocations that could not be resolved. -/
  problems : List Fault
  config : Config
  trace : Trace := {}
  wakeups : List Wakeup := []
  /-- The links that have carried a value. -/
  transmitted : List Nat := []
  /-- How deep in a cascade of reactions the simulation is. -/
  depth : Nat := 0
  halted : Bool := false

namespace Simulation

/-- Set up a model, valid or not, before anything has happened. -/
def new (model : Model) (config : Config) : Simulation :=
  let (realization, problems) := Realization.ofModel model
  { model, wiring := .ofModel model, realization, problems, config }

/-- The number of nested reactions, and of delegations in a row, that is tolerated. -/
def limit (sim : Simulation) : Nat := sim.config.maxCascadeDepth

def record (sim : Simulation) (element : String) (kind : StepKind) (input output : Option Value) :
    Simulation :=
  { sim with trace := sim.trace.record element kind input output }

/-- End the run: nothing that is under way or waiting is carried on. -/
def halt (sim : Simulation) (fault : Fault) : Simulation :=
  { sim with
    trace := sim.trace.recordFault sim.model.name .log none fault
    wakeups := []
    wiring := sim.wiring.abortAll
    halted := true }

/-- Record a failure and go on, unless the fault is fatal. -/
def fail (sim : Simulation) (element : String) (kind : StepKind) (input : Option Value)
    (fault : Fault) : Simulation :=
  if fault.isFatal then sim.halt fault
  else { sim with trace := sim.trace.recordFault element kind input fault }

def unlessHalted (sim : Simulation) (step : Simulation → Simulation) : Simulation :=
  if sim.halted then sim else step sim

def failIf (sim : Simulation) (element : String) (kind : StepKind) (input : Option Value)
    (outcome : Except Fault Unit) : Simulation :=
  match outcome with
  | .ok () => sim
  | .error fault => sim.fail element kind input fault

end Simulation
end Archflow
