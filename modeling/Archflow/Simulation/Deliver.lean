import Archflow.Simulation.Receive

/-!
Delivery of values over links. The connector of a link may transform a value and constrain what
goes in and comes out; what comes out must fit the link and the ports it reaches. A channel delivers
one value at a time, in the order they were sent.
-/
namespace Archflow.Simulation

def functionsOf (sim : Simulation) (link : Link) : ConnectorFunctions :=
  (link.connector.bind sim.realization.functionsOf?).getD {}

/-- The value that comes out of a transform; every successful call is recorded. -/
def runTransform (sim : Simulation) (name : String) (raw : Value) : Except Fault Value × Simulation :=
  match sim.model.executables.get? name with
  | none => (.error (.unresolved (.executable name)), sim)
  | some exe =>
    match exe.run [raw] sim.model.symbols with
    | .error fault => (.error fault, sim)
    | .ok none => (.error (.typeMismatch (.transformWithoutResult name)), sim)
    | .ok (some output) =>
        (.ok output, sim.record name .exec (some (exe.callRecord [raw])) (some output))

def transformed (sim : Simulation) (transform : Option String) (raw : Value) :
    Except Fault Value × Simulation :=
  match transform with
  | some name => sim.runTransform name raw
  | none => (.ok raw, sim)

def checkConstraint (sim : Simulation) (name : String) (raw carried : Value) : Except Fault Unit :=
  match sim.model.constraints.get? name with
  | none => .error (.unresolved (.constraint name))
  | some constraint => constraint.check (constraint.env sim.model.symbols [raw] [carried])

/-- Refuse a carried value that violates the constraint of the connector or does not fit the link. -/
def checkCarried (sim : Simulation) (link : Link) (constraint : Option String) (raw carried : Value) :
    Except Fault Unit := do
  constraint.forM fun name => sim.checkConstraint name raw carried
  sim.model.symbols.check carried link.type (.flow link.source link.target)

def deliver (sim : Simulation) (delivery : Delivery) : Except Fault Unit × Simulation :=
  match sim.wiring.links[delivery.link]? with
  | none => (.error (.unresolved (.link delivery.link)), sim)
  | some link =>
    let functions := sim.functionsOf link
    match sim.transformed functions.transform delivery.value with
    | (.error fault, sim) => (.error fault, sim)
    | (.ok carried, sim) =>
      match sim.checkCarried link functions.constraint delivery.value carried with
      | .error fault => (.error fault, sim)
      | .ok () => sim.receive link.target carried

def putChannel (sim : Simulation) (name : String) (channel : Channel) : Simulation :=
  { sim with wiring := sim.wiring.putChannel name channel }

/-- Deliver what waits on a claimed channel. The count is that of the waiting values; no delivery
adds to it. A halt stops the deliveries and leaves the channel as the halt left it. -/
def pumpLoop (name : String) : (count : Nat) → Simulation → Simulation
  | 0, sim => sim.putChannel name (sim.wiring.channel name).finish
  | count + 1, sim =>
    match (sim.wiring.channel name).next? with
    | none => sim.putChannel name (sim.wiring.channel name).finish
    | some (delivery, channel) =>
        let (outcome, sim) := (sim.putChannel name channel).deliver delivery
        let sim := sim.failIf name .log (some delivery.value) outcome
        if sim.halted then sim else pumpLoop name count sim

def pump (sim : Simulation) (name : String) : Simulation :=
  match (sim.wiring.channel name).begin? with
  | none => sim
  | some channel => pumpLoop name channel.size (sim.putChannel name channel)

/-- Send a value over a link. An index without a link is ignored. -/
def transmit (sim : Simulation) (index : Nat) (value : Value) : Simulation :=
  match sim.wiring.links[index]? with
  | none => sim
  | some link =>
      let transmitted := if sim.transmitted.contains index then sim.transmitted
        else index :: sim.transmitted
      let channel := (sim.wiring.channel link.channel).enqueue ⟨index, value⟩
      ({ sim with transmitted }.putChannel link.channel channel).pump link.channel

end Archflow.Simulation
