import Archflow.Protocol.Machine
import Archflow.Simulation.React

/-!
What drives a simulation from outside: seeding of port values, propagation along the scheduled
links, protocols, executables that nothing in the model uses, and values sent to single ports.
-/
namespace Archflow.Simulation

def reportProblems (sim : Simulation) : Simulation :=
  sim.problems.foldl (fun sim fault => sim.fail "allocation" .log none fault) sim

/-- Enter the port values of every component in its state. -/
def seedInitialValues (sim : Simulation) : Simulation :=
  let seed (component : Component) : Component :=
    let values := component.ports.filterMap fun port => port.value.map (port.name, ·)
    { component with state := component.state.insertAll values }
  { sim with model := { sim.model with components := sim.model.components.map fun _ => seed } }

/-- Put a value on a port from outside. A port that can receive receives it; any other port and the
state of its component just take it. -/
def inject (sim : Simulation) (port : PortRef) (value : Value) : Except Fault Unit × Simulation :=
  match sim.model.resolve port with
  | .error fault => (.error fault, sim)
  | .ok resolved =>
    if resolved.direction.canReceive then sim.receive port value
    else
      match resolved.checkPayload sim.model.symbols value with
      | .error fault => (.error fault, sim)
      | .ok () =>
          let model := (sim.model.setPort port value).setState port.component port.port value
          (.ok (), { sim with model })

def injectNamed (sim : Simulation) (qualified : String) (value : Value) :
    Except Fault Unit × Simulation :=
  match PortRef.parse qualified with
  | .error fault => (.error fault, sim)
  | .ok port => sim.inject port value

def seedInput (sim : Simulation) (qualified : String) (value : Value) : Simulation :=
  let (outcome, sim) := sim.injectNamed qualified value
  (sim.failIf qualified .log (some value) outcome).drain

/-- Send the source value of a scheduled link over it and let the model react, unless the link has
carried a value. -/
def propagate (sim : Simulation) (index : Nat) : Simulation :=
  if sim.transmitted.contains index then sim
  else
    match sim.wiring.links[index]?.bind fun link => (sim.model.port? link.source).bind Port.value with
    | some value => (sim.transmit index value).drain
    | none => sim

def propagateFlows (sim : Simulation) : Simulation :=
  sim.wiring.schedule.foldl (fun sim index => sim.unlessHalted (·.propagate index)) sim

/-- The ports of a component as protocols see them. Whatever a protocol sends is reacted to at once,
and nothing can be sent once the run has halted. -/
def componentAccess (component : String) : Protocol.Access Simulation where
  direction sim port := (sim.model.port? ⟨component, port⟩).map Port.direction
  current sim port := (sim.model.port? ⟨component, port⟩).bind Port.value
  send sim port value :=
    if sim.halted then .error (.cascadeLimitExceeded sim.limit)
    else
      match sim.send ⟨component, port⟩ value with
      | (.error fault, _) => .error fault
      | (.ok (), sim) => .ok sim.drain

def recordResult (protocol : Protocol) (sim : Simulation) (result : Protocol.Result) : Simulation :=
  sim.record protocol.name .protocol (some (.text s!"{result.operation.text} {result.port}"))
    (some result.value)

/-- Run a protocol on the ports of a component. A failure that is due to a halt is not recorded. -/
def runProtocol (sim : Simulation) (protocol : Protocol) (component : String) : Simulation :=
  let (outcome, machine, sim) := Protocol.Machine.run {} protocol (componentAccess component)
    sim.model.symbols sim.config.protocolIterations sim
  let sim := machine.results.foldl (recordResult protocol) sim
  sim.unlessHalted (·.failIf protocol.name .protocol none outcome)

/-- Run the protocols that are bound to components, in order of their names, until the run halts. -/
def runProtocols (sim : Simulation) : Simulation :=
  sim.model.protocols.items.foldl (fun sim protocol =>
    match protocol.component with
    | some component => sim.unlessHalted (·.runProtocol protocol component)
    | none => sim) sim

/-- Run an executable on supplied arguments, or else on its defaults. -/
def runOrphan (sim : Simulation) (supplied : Table (List Value)) (name : String) : Simulation :=
  match sim.model.executables.get? name with
  | none => sim
  | some exe =>
    let args := (supplied.get? name).getD (exe.defaultArguments sim.model.symbols)
    let input := some (exe.callRecord args)
    match exe.run args sim.model.symbols with
    | .ok output => sim.record name .exec input output
    | .error fault => sim.fail name .exec input fault

/-- Run the executables that no action and no connector uses, in order of their names. -/
def runOrphans (sim : Simulation) (supplied : Table (List Value)) : Simulation :=
  let orphans := sim.model.executables.keys.filter fun name => !sim.realization.isReferenced name
  orphans.foldl (fun sim name => sim.unlessHalted (·.runOrphan supplied name)) sim

/-- Let the port of a qualified name send a value, or receive it if it cannot send. -/
def submit (sim : Simulation) (qualified : String) (value : Value) : Except Fault Unit × Simulation :=
  match PortRef.parse qualified with
  | .error fault => (.error fault, sim)
  | .ok port =>
    match sim.model.resolve port with
    | .error fault => (.error fault, sim)
    | .ok resolved =>
        if resolved.direction.canSend then sim.send port value else sim.receive port value

/-- Send a value to a port from outside and let the model react; a halted run goes on. The answer
says whether the value was accepted and the reactions came to an end. -/
def sendToPort (sim : Simulation) (qualified : String) (value : Value) : Bool × Simulation :=
  match { sim with halted := false }.submit qualified value with
  | (.error fault, sim) => (false, sim.fail qualified .log (some value) fault)
  | (.ok (), sim) =>
      let sim := sim.drain
      (!sim.halted, sim)

end Archflow.Simulation
