import Archflow.Simulation.Send

/-!
Reactions: components that values arrived at are woken up one after the other, and fire those of
their activities that are interested and ready. What a firing sends may wake up further components,
one level deeper; the run halts when a reaction would lie too deep.
-/
namespace Archflow.Simulation

def constraintOf (sim : Simulation) (firing : Firing) : Except Fault (Option Constraint) :=
  match firing.constraint with
  | none => .ok none
  | some name =>
    match sim.model.constraints.get? name with
    | none => .error (.unresolved (.constraint name))
    | some constraint => .ok (some constraint)

/-- Compute the result of a firing, under the precondition of its constraint. -/
def compute (sim : Simulation) (firing : Firing) (exe : Executable) (constraint : Option Constraint) :
    Outcome := do
  constraint.forM fun constraint =>
    constraint.checkPre (constraint.env sim.model.symbols firing.args [])
  exe.run firing.args sim.model.symbols

def checkResult (sim : Simulation) (firing : Firing) (constraint : Option Constraint)
    (result : Option Value) : Except Fault Unit :=
  constraint.forM fun constraint =>
    constraint.checkPost (constraint.env sim.model.symbols firing.args result.toList)

def resultChain (sim : Simulation) (firing : Firing) (value : Value) : Except Fault (List PortRef) :=
  match firing.outputPort with
  | some port => sim.model.sendChain sim.limit port value
  | none => .ok []

/-- Enter the result of a firing in the state of its component, and send it. -/
def emit (sim : Simulation) (firing : Firing) (result : Option Value) : Except Fault Unit × Simulation :=
  match firing.outputKey, result with
  | some key, some value =>
    match sim.resultChain firing value with
    | .error fault => (.error fault, sim)
    | .ok chain =>
        let model := sim.model.setState firing.component key value
        (.ok (), { sim with model }.sendAlong chain value)
  | _, _ => (.ok (), sim)

def execute (sim : Simulation) (firing : Firing) : Except Fault Unit × Simulation :=
  match sim.model.executables.get? firing.executable with
  | none => (.error (.missingAllocation (.executableGone firing.executable)), sim)
  | some exe =>
    match sim.constraintOf firing with
    | .error fault => (.error fault, sim)
    | .ok constraint =>
      match sim.compute firing exe constraint with
      | .error fault => (.error fault, sim)
      | .ok result =>
        let sim := sim.record firing.executable .exec (some (exe.callRecord firing.args)) result
        match sim.checkResult firing constraint result with
        | .error fault => (.error fault, sim)
        | .ok () => sim.emit firing result

def firstFiring? (sim : Simulation) (component : Component) (activity : String) :
    List String → Except Fault (Option Firing)
  | [] => .ok none
  | port :: rest =>
    match sim.model.fire? sim.realization component activity port with
    | .error fault => .error fault
    | .ok (some firing) => .ok (some firing)
    | .ok none => sim.firstFiring? component activity rest

def firingFor? (sim : Simulation) (wakeup : Wakeup) (activity : String) : Except Fault (Option Firing) :=
  match sim.model.components.get? wakeup.component with
  | none => .ok none
  | some component => sim.firstFiring? component activity wakeup.ports

def tryActivity (sim : Simulation) (wakeup : Wakeup) (activity : String) : Simulation :=
  match sim.firingFor? wakeup activity with
  | .error fault => sim.fail activity .log none fault
  | .ok none => sim
  | .ok (some firing) =>
      let (outcome, sim) := sim.execute firing
      let input := (sim.model.executables.get? firing.executable).map (·.callRecord firing.args)
      sim.failIf firing.executable .exec input outcome

def tryActivities (wakeup : Wakeup) : List String → Simulation → Simulation
  | [], sim => sim
  | activity :: rest, sim =>
      if sim.halted then sim else tryActivities wakeup rest (sim.tryActivity wakeup activity)

/-- Wake up a component. What its activities set off lies one level deeper. -/
def wake (sim : Simulation) (wakeup : Wakeup) : Simulation :=
  let activities := sim.realization.activitiesOf wakeup.component
  let sim' := tryActivities wakeup activities { sim with depth := wakeup.depth + 1 }
  { sim' with depth := sim.depth }

/-- Wake up the waiting components, at most `fuel` of them. -/
def drainLoop : (fuel : Nat) → Simulation → Simulation
  | 0, sim => sim
  | fuel + 1, sim =>
    match sim.wakeups with
    | [] => sim
    | wakeup :: wakeups =>
        let sim := { sim with wakeups }
        if sim.halted then sim
        else if sim.limit < wakeup.depth then sim.halt (.cascadeLimitExceeded sim.limit)
        else drainLoop fuel (sim.wake wakeup)

/-- Enough wake-ups for a whole cascade: each component is woken up at most once at each depth. -/
def drainBound (sim : Simulation) : Nat :=
  sim.wakeups.length + (sim.limit + 2) * (sim.model.components.size + 1)

/-- Wake up components until none waits or the run halts. -/
def drain (sim : Simulation) : Simulation := drainLoop sim.drainBound sim

end Archflow.Simulation
