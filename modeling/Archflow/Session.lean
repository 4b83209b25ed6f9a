import Archflow.Model.Validity
import Archflow.Simulation.Host

/-!
Sessions: a valid model that can be run on inputs any number of times. Every run starts from the
model as it was loaded; values sent to ports afterwards go to the state that the last run left.
-/
namespace Archflow

/-- Values for ports, by qualified name and in order, and arguments for executables. -/
structure Inputs where
  ports : List (String × Value) := []
  executables : Table (List Value) := ∅
deriving DecidableEq

structure Session where
  model : Model
  inputs : Inputs
  config : Config
  simulation : Simulation

namespace Session

def load (model : Model) (config : Config) : Except Fault Session := do
  model.validate
  pure { model, inputs := {}, config, simulation := .new model config }

def seedInputs (sim : Simulation) (ports : List (String × Value)) : Simulation :=
  ports.foldl (fun sim input => sim.unlessHalted (·.seedInput input.1 input.2)) sim

def simulate (model : Model) (config : Config) (inputs : Inputs) : Simulation :=
  let seeded := seedInputs (Simulation.new model config).reportProblems.seedInitialValues inputs.ports
  let propagated := seeded.unlessHalted Simulation.propagateFlows
  let communicated := propagated.unlessHalted Simulation.runProtocols
  communicated.unlessHalted (·.runOrphans inputs.executables)

def run (session : Session) : Session :=
  { session with simulation := simulate session.model session.config session.inputs }

def sendToPort (session : Session) (qualified : String) (value : Value) : Bool × Session :=
  let (accepted, simulation) := session.simulation.sendToPort qualified value
  (accepted, { session with simulation })

def trace (session : Session) : Trace := session.simulation.trace

def portValue? (session : Session) (qualified : String) : Option Value := do
  let port ← PortRef.parse? qualified
  (← session.simulation.model.port? port).value

def state? (session : Session) (component : String) : Option (Table Value) :=
  (session.simulation.model.components.get? component).map Component.state

def runBatch (jobs : List (Model × Inputs)) (config : Config) : List (Except Fault Trace) :=
  jobs.map fun (model, inputs) => do
    let session ← load model config
    pure { session with inputs }.run.trace

end Session
end Archflow
