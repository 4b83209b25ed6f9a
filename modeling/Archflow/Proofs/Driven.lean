import Archflow.Proofs.Course
import Archflow.Proofs.Protocol
import Archflow.Proofs.Realization
import Archflow.Session

/-!
Histories of everything a host can do to a simulation. At the outermost level a simulation is driven
by single events, which wake up nothing, and by work that the waiting wake-ups are drained after.
-/
namespace Archflow.Simulation

/-- Single events that wake up nothing, and courses with a drain at their end, one after the
other. -/
inductive Driven : Simulation → List Moment → Simulation → Prop
  | nil (sim : Simulation) : Driven sim [] sim
  | note {sim last : Simulation} {event : Event} {later : List Moment}
      (admitted : event.Plain True sim) (silent : ∀ port value, event ≠ .land port value)
      (tail : Driven (event.effect sim) later last) : Driven sim (⟨sim, event⟩ :: later) last
  | react {sim mid last : Simulation} {history later : List Moment}
      (course : Course (Event.Plain True) sim history mid) (tail : Driven mid.drain later last) :
      Driven sim (history ++ (mid.drainHistory ++ later)) last

namespace Driven

variable {sim mid last : Simulation} {history later : List Moment} {event : Event}

theorem noted (admitted : event.Plain True sim) (silent : ∀ port value, event ≠ .land port value) :
    Driven sim [⟨sim, event⟩] (event.effect sim) :=
  .note admitted silent (.nil _)

theorem reacted (course : Course (Event.Plain True) sim history mid) :
    Driven sim (history ++ mid.drainHistory) mid.drain := by
  simpa using Driven.react course (.nil _)

theorem append (first : Driven sim history mid) (second : Driven mid later last) :
    Driven sim (history ++ later) last := by
  induction first with
  | nil => exact second
  | note admitted silent _ ih => exact .note admitted silent (ih second)
  | react course _ ih =>
    rw [List.append_assoc, List.append_assoc]
    exact .react course (ih second)

theorem leads (driven : Driven sim history last) : Leads Event.Checked sim history last := by
  induction driven with
  | nil => exact .nil _
  | note admitted _ _ ih => exact .cons admitted.2.1 ih
  | react course _ ih =>
    exact course.checked.append ((drain_leads _).append ih)

end Driven

def foldHistory {α : Type} (step : Simulation → α → Simulation)
    (history : Simulation → α → List Moment) : List α → Simulation → List Moment
  | [], _ => []
  | item :: rest, sim => history sim item ++ foldHistory step history rest (step sim item)

theorem foldl_driven {α : Type} {step : Simulation → α → Simulation}
    {history : Simulation → α → List Moment}
    (h : ∀ sim item, Driven sim (history sim item) (step sim item)) (items : List α)
    (sim : Simulation) : Driven sim (foldHistory step history items sim) (items.foldl step sim) := by
  induction items generalizing sim with
  | nil => exact .nil _
  | cons item rest ih => exact (h sim item).append (ih _)

def unlessHaltedHistory (sim : Simulation) (history : Simulation → List Moment) : List Moment :=
  if sim.halted then [] else history sim

theorem unlessHalted_driven {sim : Simulation} {step : Simulation → Simulation}
    {history : Simulation → List Moment}
    (h : sim.halted = false → Driven sim (history sim) (step sim)) :
    Driven sim (sim.unlessHaltedHistory history) (sim.unlessHalted step) := by
  unfold unlessHaltedHistory unlessHalted
  split
  · exact .nil _
  · next hhalted => exact h (Bool.eq_false_iff.2 hhalted)

/-! Histories. -/

def reportHistory (sim : Simulation) : List Moment :=
  foldHistory (fun sim fault => sim.fail "allocation" .log none fault)
    (fun sim fault => [⟨sim, .fail "allocation" .log none fault⟩]) sim.problems sim

def injectHistory (sim : Simulation) (port : PortRef) (value : Value) : List Moment :=
  match sim.model.resolve port with
  | .error _ => []
  | .ok resolved =>
    if resolved.direction.canReceive then sim.receiveHistory port value
    else
      match resolved.checkPayload sim.model.symbols value with
      | .error _ => []
      | .ok () => [⟨sim, .place port value⟩]

def injectNamedHistory (sim : Simulation) (qualified : String) (value : Value) : List Moment :=
  match PortRef.parse qualified with
  | .error _ => []
  | .ok port => sim.injectHistory port value

def seedInputHistory (sim : Simulation) (qualified : String) (value : Value) : List Moment :=
  let (outcome, injected) := sim.injectNamed qualified value
  sim.injectNamedHistory qualified value ++
    injected.failHistory qualified .log (some value) outcome ++
    (injected.failIf qualified .log (some value) outcome).drainHistory

def propagateHistory (sim : Simulation) (index : Nat) : List Moment :=
  if sim.transmitted.contains index then []
  else
    match sim.wiring.links[index]?.bind fun link => (sim.model.port? link.source).bind Port.value with
    | some value => sim.transmitHistory index value ++ (sim.transmit index value).drainHistory
    | none => []

def propagateFlowsHistory (sim : Simulation) : List Moment :=
  foldHistory (fun sim index => sim.unlessHalted (·.propagate index))
    (fun sim index => sim.unlessHaltedHistory (·.propagateHistory index)) sim.wiring.schedule sim

/-- The ports of a component, with the history of all that is sent from them. -/
def loggedAccess (component : String) : Protocol.Access (Simulation × List Moment) where
  direction store port := (componentAccess component).direction store.1 port
  current store port := (componentAccess component).current store.1 port
  send store port value :=
    ((componentAccess component).send store.1 port value).map fun sent =>
      (sent, store.2 ++ (store.1.sendHistory ⟨component, port⟩ value ++
        (store.1.send ⟨component, port⟩ value).2.drainHistory))

def protocolHistory (sim : Simulation) (protocol : Protocol) (component : String) : List Moment :=
  let (outcome, machine, store) := Protocol.Machine.run {} protocol (loggedAccess component)
    sim.model.symbols sim.config.protocolIterations (sim, [])
  let recorded := machine.results.foldl (recordResult protocol) store.1
  store.2 ++
    foldHistory (recordResult protocol) (fun sim result => [⟨sim, .record protocol.name .protocol
      (some (.text s!"{result.operation.text} {result.port}")) (some result.value)⟩])
      machine.results store.1 ++
    recorded.unlessHaltedHistory (·.failHistory protocol.name .protocol none outcome)

def protocolsHistory (sim : Simulation) : List Moment :=
  foldHistory (fun sim protocol =>
      match protocol.component with
      | some component => sim.unlessHalted (·.runProtocol protocol component)
      | none => sim)
    (fun sim protocol =>
      match protocol.component with
      | some component => sim.unlessHaltedHistory (·.protocolHistory protocol component)
      | none => []) sim.model.protocols.items sim

def orphanHistory (sim : Simulation) (supplied : Table (List Value)) (name : String) : List Moment :=
  match sim.model.executables.get? name with
  | none => []
  | some exe =>
    let args := (supplied.get? name).getD (exe.defaultArguments sim.model.symbols)
    let input := some (exe.callRecord args)
    match exe.run args sim.model.symbols with
    | .ok output => [⟨sim, .record name .exec input output⟩]
    | .error fault => [⟨sim, .fail name .exec input fault⟩]

def orphansHistory (sim : Simulation) (supplied : Table (List Value)) : List Moment :=
  foldHistory (fun sim name => sim.unlessHalted (·.runOrphan supplied name))
    (fun sim name => sim.unlessHaltedHistory (·.orphanHistory supplied name))
    (sim.model.executables.keys.filter fun name => !sim.realization.isReferenced name) sim

def submitHistory (sim : Simulation) (qualified : String) (value : Value) : List Moment :=
  match PortRef.parse qualified with
  | .error _ => []
  | .ok port =>
    match sim.model.resolve port with
    | .error _ => []
    | .ok resolved =>
        if resolved.direction.canSend then sim.sendHistory port value
        else sim.receiveHistory port value

def sendToPortHistory (sim : Simulation) (qualified : String) (value : Value) : List Moment :=
  let resumed := { sim with halted := false }
  ⟨sim, .resume⟩ :: (resumed.submitHistory qualified value ++
    match resumed.submit qualified value with
    | (.error fault, submitted) => [⟨submitted, .fail qualified .log (some value) fault⟩]
    | (.ok (), submitted) => submitted.drainHistory)

def seedInputsHistory (sim : Simulation) (ports : List (String × Value)) : List Moment :=
  foldHistory (fun sim input => sim.unlessHalted (·.seedInput input.1 input.2))
    (fun sim input => sim.unlessHaltedHistory (·.seedInputHistory input.1 input.2)) ports sim

def simulateHistory (model : Model) (config : Config) (inputs : Inputs) : List Moment :=
  let start := Simulation.new model config
  let reported := start.reportProblems
  let seeded := Session.seedInputs reported.seedInitialValues inputs.ports
  let propagated := seeded.unlessHalted Simulation.propagateFlows
  let communicated := propagated.unlessHalted Simulation.runProtocols
  start.reportHistory ++ ⟨reported, .seed⟩ ::
    (reported.seedInitialValues.seedInputsHistory inputs.ports ++
      (seeded.unlessHaltedHistory propagateFlowsHistory ++
        (propagated.unlessHaltedHistory protocolsHistory ++
          communicated.unlessHaltedHistory (·.orphansHistory inputs.executables))))

def seeded (model : Model) (config : Config) (ports : List (String × Value)) : Simulation :=
  Session.seedInputs (new model config).reportProblems.seedInitialValues ports

def seededHistory (model : Model) (config : Config) (ports : List (String × Value)) : List Moment :=
  let reported := (new model config).reportProblems
  (new model config).reportHistory ++
    ⟨reported, .seed⟩ :: reported.seedInitialValues.seedInputsHistory ports

def propagated (model : Model) (config : Config) (ports : List (String × Value)) : Simulation :=
  (seeded model config ports).unlessHalted propagateFlows

def propagatedHistory (model : Model) (config : Config) (ports : List (String × Value)) :
    List Moment :=
  seededHistory model config ports ++
    (seeded model config ports).unlessHaltedHistory propagateFlowsHistory

theorem simulate_eq (model : Model) (config : Config) (inputs : Inputs) :
    Session.simulate model config inputs =
      ((propagated model config inputs.ports).unlessHalted runProtocols).unlessHalted
        (·.runOrphans inputs.executables) := rfl

theorem simulateHistory_eq (model : Model) (config : Config) (inputs : Inputs) :
    simulateHistory model config inputs = propagatedHistory model config inputs.ports ++
      ((propagated model config inputs.ports).unlessHaltedHistory protocolsHistory ++
        ((propagated model config inputs.ports).unlessHalted runProtocols).unlessHaltedHistory
          (·.orphansHistory inputs.executables)) := by
  simp only [simulateHistory, propagatedHistory, seededHistory, List.append_assoc, List.cons_append]
  rfl

/-! What a host does drives the simulation. -/

theorem fail_driven (sim : Simulation) (element : String) (kind : StepKind) (input : Option Value)
    (fault : Fault) :
    Driven sim [⟨sim, .fail element kind input fault⟩] (sim.fail element kind input fault) :=
  .noted ⟨rfl, trivial, fun _ h => by cases h⟩ nofun

theorem failIf_driven (sim : Simulation) (element : String) (kind : StepKind) (input : Option Value)
    (outcome : Except Fault Unit) :
    Driven sim (sim.failHistory element kind input outcome)
      (sim.failIf element kind input outcome) := by
  cases outcome with
  | ok => exact .nil _
  | error fault => exact sim.fail_driven ..

theorem record_driven (sim : Simulation) (element : String) (kind : StepKind)
    (input output : Option Value) :
    Driven sim [⟨sim, .record element kind input output⟩] (sim.record element kind input output) :=
  .noted ⟨rfl, trivial, fun _ h => by cases h⟩ nofun

theorem reportProblems_driven (sim : Simulation) : Driven sim sim.reportHistory sim.reportProblems :=
  foldl_driven (fun sim _ => sim.fail_driven ..) _ _

theorem inject_course (sim : Simulation) (port : PortRef) (value : Value)
    (hlive : sim.halted = false) :
    Course (Event.Plain True) sim (sim.injectHistory port value) (sim.inject port value).2 := by
  unfold injectHistory inject
  cases hresolve : sim.model.resolve port with
  | error fault => exact .nil _
  | ok resolved =>
    dsimp only
    split
    · exact .of_leads (receive_leads True sim port value fun _ => hlive)
    · cases hpayload : resolved.checkPayload sim.model.symbols value with
      | error fault => exact .nil _
      | ok => exact .single ⟨rfl, ⟨resolved, hresolve, hpayload⟩, fun _ _ => hlive⟩

theorem injectNamed_course (sim : Simulation) (qualified : String) (value : Value)
    (hlive : sim.halted = false) :
    Course (Event.Plain True) sim (sim.injectNamedHistory qualified value)
      (sim.injectNamed qualified value).2 := by
  unfold injectNamedHistory injectNamed
  cases PortRef.parse qualified with
  | error fault => exact .nil _
  | ok port => exact inject_course sim port value hlive

theorem seedInput_driven (sim : Simulation) (qualified : String) (value : Value)
    (hlive : sim.halted = false) :
    Driven sim (sim.seedInputHistory qualified value) (sim.seedInput qualified value) :=
  .reacted ((injectNamed_course sim qualified value hlive).append (.of_leads (failIf_leads True ..)))

theorem propagate_driven (sim : Simulation) (index : Nat) (hlive : sim.halted = false) :
    Driven sim (sim.propagateHistory index) (sim.propagate index) := by
  unfold propagateHistory propagate
  split
  · exact .nil _
  · cases sim.wiring.links[index]?.bind fun link => (sim.model.port? link.source).bind Port.value with
    | none => exact .nil _
    | some value =>
      have htransmit : Course (Event.Plain True) sim (sim.transmitHistory index value ++ [])
          (sim.transmit index value) := .transmit hlive (.nil _)
      rw [List.append_nil] at htransmit
      exact .reacted htransmit

theorem propagateFlows_driven (sim : Simulation) :
    Driven sim sim.propagateFlowsHistory sim.propagateFlows :=
  foldl_driven (fun sim index => unlessHalted_driven (sim.propagate_driven index)) _ _

theorem loggedAccess_maps (component : String) :
    (loggedAccess component).Maps Prod.fst (componentAccess component) where
  direction _ _ := rfl
  current _ _ := rfl
  send store port value := by
    unfold loggedAccess
    dsimp only
    cases (componentAccess component).send store.1 port value <;> rfl

/-- A send of a protocol that succeeds sends and then drains, in a run that has not halted. -/
theorem componentAccess_send {component port : String} {value : Value} {sim sent : Simulation}
    (h : (componentAccess component).send sim port value = .ok sent) :
    sim.halted = false ∧ sent = (sim.send ⟨component, port⟩ value).2.drain := by
  simp only [componentAccess] at h
  split at h
  · cases h
  · next hhalted =>
    refine ⟨Bool.eq_false_iff.2 hhalted, ?_⟩
    rcases hsend : sim.send ⟨component, port⟩ value with ⟨outcome, after⟩
    rw [hsend] at h
    cases outcome with
    | error fault => cases h
    | ok =>
      cases h
      rfl

theorem loggedAccess_send {component port : String} {value : Value}
    {store next : Simulation × List Moment}
    (h : (loggedAccess component).send store port value = .ok next) :
    store.1.halted = false ∧
      next = ((store.1.send ⟨component, port⟩ value).2.drain,
        store.2 ++ (store.1.sendHistory ⟨component, port⟩ value ++
          (store.1.send ⟨component, port⟩ value).2.drainHistory)) := by
  unfold loggedAccess at h
  dsimp only at h
  cases hsend : (componentAccess component).send store.1 port value with
  | error fault =>
    rw [hsend] at h
    cases h
  | ok sent =>
    rw [hsend] at h
    cases h
    obtain ⟨hlive, rfl⟩ := componentAccess_send hsend
    exact ⟨hlive, rfl⟩

theorem loggedAccess_driven {component port : String} {value : Value} {start : Simulation}
    {store next : Simulation × List Moment}
    (h : (loggedAccess component).send store port value = .ok next)
    (hstore : Driven start store.2 store.1) : Driven start next.2 next.1 := by
  obtain ⟨hlive, rfl⟩ := loggedAccess_send h
  exact hstore.append (.reacted (send_course store.1 ⟨component, port⟩ value fun _ => hlive))

theorem protocol_driven (sim : Simulation) (protocol : Protocol) (component : String) :
    Driven sim (sim.protocolHistory protocol component) (sim.runProtocol protocol component) := by
  have hmap := Protocol.Machine.run_map protocol sim.model.symbols (loggedAccess_maps component)
    sim.config.protocolIterations {} (sim, [])
  have hsends := @Protocol.Machine.run_preserves _ (loggedAccess component)
    (fun store => Driven sim store.2 store.1) protocol sim.model.symbols
    (fun _ _ _ _ _ => loggedAccess_driven) sim.config.protocolIterations {} (sim, []) (.nil sim)
  unfold protocolHistory runProtocol
  rw [hmap]
  generalize Protocol.Machine.run {} protocol (loggedAccess component) sim.model.symbols
    sim.config.protocolIterations (sim, []) = run at hsends ⊢
  obtain ⟨outcome, machine, store⟩ := run
  have hrecords : Driven store.1 (foldHistory (recordResult protocol) _ machine.results store.1)
      (machine.results.foldl (recordResult protocol) store.1) :=
    foldl_driven (fun sim _ => sim.record_driven ..) _ _
  exact (hsends.append hrecords).append (unlessHalted_driven fun _ => failIf_driven ..)

theorem protocols_driven (sim : Simulation) : Driven sim sim.protocolsHistory sim.runProtocols := by
  refine foldl_driven (fun sim protocol => ?_) _ _
  cases protocol.component with
  | none => exact .nil _
  | some component => exact unlessHalted_driven fun _ => sim.protocol_driven protocol component

theorem orphan_driven (sim : Simulation) (supplied : Table (List Value)) (name : String) :
    Driven sim (sim.orphanHistory supplied name) (sim.runOrphan supplied name) := by
  unfold orphanHistory runOrphan
  cases sim.model.executables.get? name with
  | none => exact .nil _
  | some exe =>
    dsimp only
    cases exe.run ((supplied.get? name).getD (exe.defaultArguments sim.model.symbols))
      sim.model.symbols with
    | error fault => exact sim.fail_driven ..
    | ok output => exact sim.record_driven ..

theorem orphans_driven (sim : Simulation) (supplied : Table (List Value)) :
    Driven sim (sim.orphansHistory supplied) (sim.runOrphans supplied) :=
  foldl_driven (fun sim name => unlessHalted_driven fun _ => sim.orphan_driven supplied name) _ _

theorem submit_course (sim : Simulation) (qualified : String) (value : Value)
    (hlive : sim.halted = false) :
    Course (Event.Plain True) sim (sim.submitHistory qualified value)
      (sim.submit qualified value).2 := by
  unfold submitHistory submit
  cases PortRef.parse qualified with
  | error fault => exact .nil _
  | ok port =>
    dsimp only
    cases sim.model.resolve port with
    | error fault => exact .nil _
    | ok resolved =>
      dsimp only
      split
      · exact send_course sim port value fun _ => hlive
      · exact .of_leads (receive_leads True sim port value fun _ => hlive)

theorem submit_error {sim rejected : Simulation} {qualified : String} {value : Value} {fault : Fault}
    (h : sim.submit qualified value = (.error fault, rejected)) :
    rejected = sim ∧ sim.submitHistory qualified value = [] := by
  unfold submit at h
  unfold submitHistory
  cases hparse : PortRef.parse qualified with
  | error other =>
    rw [hparse] at h
    cases h
    exact ⟨rfl, rfl⟩
  | ok port =>
    simp only [hparse] at h
    dsimp only
    cases hresolve : sim.model.resolve port with
    | error other =>
      simp only [hresolve] at h
      cases h
      exact ⟨rfl, rfl⟩
    | ok resolved =>
      simp only [hresolve] at h
      dsimp only
      cases hsend : resolved.direction.canSend with
      | true =>
        rw [hsend] at h
        exact send_error h
      | false =>
        rw [hsend] at h
        exact receive_error h

theorem resumed_driven (sim : Simulation) (qualified : String) (value : Value) :
    Driven { sim with halted := false } (sim.sendToPortHistory qualified value).tail
      (sim.sendToPort qualified value).2 := by
  have hsubmit := submit_course { sim with halted := false } qualified value rfl
  unfold sendToPortHistory sendToPort
  dsimp only [List.tail_cons]
  cases hsubmitted : submit { sim with halted := false } qualified value with
  | mk outcome submitted =>
    rw [hsubmitted] at hsubmit
    cases outcome with
    | error fault =>
      obtain ⟨rfl, hhistory⟩ := submit_error hsubmitted
      rw [hhistory]
      exact fail_driven ..
    | ok => exact .reacted hsubmit

theorem sendToPort_driven (sim : Simulation) (qualified : String) (value : Value) :
    Driven sim (sim.sendToPortHistory qualified value) (sim.sendToPort qualified value).2 :=
  .note ⟨rfl, trivial, fun _ h => by cases h⟩ nofun (sim.resumed_driven qualified value)

theorem seedInputs_driven (sim : Simulation) (ports : List (String × Value)) :
    Driven sim (sim.seedInputsHistory ports) (Session.seedInputs sim ports) :=
  foldl_driven (fun sim input => unlessHalted_driven (sim.seedInput_driven input.1 input.2)) _ _

theorem reportProblems_new_halted (model : Model) (config : Config) :
    (Simulation.new model config).reportProblems.halted = false := by
  have hproblems := Realization.ofModel_not_fatal model
  unfold reportProblems
  refine List.foldlRecOn (motive := fun sim : Simulation => sim.halted = false) _ _ rfl
    fun sim h fault hmem => ?_
  have hfault : fault.isFatal = false := hproblems fault hmem
  simp [fail, hfault, h]

theorem seeded_driven (model : Model) (config : Config) (ports : List (String × Value)) :
    Driven (.new model config) (seededHistory model config ports) (seeded model config ports) := by
  have hseed : Event.seed.Plain True (new model config).reportProblems :=
    ⟨rfl, trivial, fun _ _ => reportProblems_new_halted model config⟩
  exact (reportProblems_driven _).append (.note hseed nofun (seedInputs_driven _ _))

theorem propagated_driven (model : Model) (config : Config) (ports : List (String × Value)) :
    Driven (.new model config) (propagatedHistory model config ports)
      (propagated model config ports) :=
  (seeded_driven model config ports).append (unlessHalted_driven fun _ => propagateFlows_driven _)

theorem simulate_driven (model : Model) (config : Config) (inputs : Inputs) :
    Driven (.new model config) (simulateHistory model config inputs)
      (Session.simulate model config inputs) := by
  rw [simulateHistory_eq, simulate_eq]
  refine (propagated_driven model config inputs.ports).append ?_
  refine (unlessHalted_driven fun _ => protocols_driven _).append ?_
  exact unlessHalted_driven fun _ => orphans_driven _ inputs.executables

/-- What can be done to a simulation from outside. A run starts over from the model. -/
inductive Operation where
  | send (port : PortRef) (value : Value)
  | receive (port : PortRef) (value : Value)
  | transmit (index : Nat) (value : Value)
  | drain
  | sendToPort (qualified : String) (value : Value)
  | run (inputs : Inputs)

namespace Operation

def apply (model : Model) (config : Config) (operation : Operation) (sim : Simulation) : Simulation :=
  match operation with
  | .send port value => (sim.send port value).2
  | .receive port value => (sim.receive port value).2
  | .transmit index value => sim.transmit index value
  | .drain => sim.drain
  | .sendToPort qualified value => (sim.sendToPort qualified value).2
  | .run inputs => Session.simulate model config inputs

def history (model : Model) (config : Config) (operation : Operation) (sim : Simulation) :
    List Moment :=
  match operation with
  | .send port value => sim.sendHistory port value
  | .receive port value => sim.receiveHistory port value
  | .transmit index value => sim.transmitHistory index value
  | .drain => sim.drainHistory
  | .sendToPort qualified value => sim.sendToPortHistory qualified value
  | .run inputs => simulateHistory model config inputs

def start (model : Model) (config : Config) (operation : Operation) (sim : Simulation) : Simulation :=
  match operation with
  | .run _ => .new model config
  | _ => sim

theorem start_of (operation : Operation) {model : Model} {config : Config} {sim : Simulation}
    (holds : Simulation → Prop) (hnew : holds (.new model config)) (h : holds sim) :
    holds (operation.start model config sim) := by
  cases operation with
  | run => exact hnew
  | _ => exact h

/-- The history of an operation leads from the state it starts in to its result. -/
theorem leads (model : Model) (config : Config) (operation : Operation) (sim : Simulation) :
    Leads Event.Checked (operation.start model config sim) (operation.history model config sim)
      (operation.apply model config sim) := by
  cases operation with
  | send port value =>
    have hcourse : Course (Event.Plain False) sim _ _ := send_course sim port value False.elim
    exact hcourse.checked
  | receive port value => exact (receive_leads False sim port value False.elim).mono fun _ _ h => h.2.1
  | transmit index value => exact (sim.transmit_leads index value).mono fun _ _ => Event.Carries.checked
  | drain => exact sim.drain_leads
  | sendToPort qualified value => exact (sim.sendToPort_driven qualified value).leads
  | run inputs => exact (simulate_driven model config inputs).leads

end Operation

def after (model : Model) (config : Config) (operations : List Operation) : Simulation :=
  operations.foldl (fun sim operation => operation.apply model config sim) (.new model config)

theorem alike_after (model : Model) (config : Config) (operations : List Operation) :
    Alike (.new model config) (after model config operations) := by
  unfold after
  refine List.foldlRecOn (motive := Alike (.new model config)) operations _ (.refl _) ?_
  intro sim h operation _
  have hstart : Alike (.new model config) (operation.start model config sim) :=
    operation.start_of (Alike (.new model config)) (.refl _) h
  exact hstart.trans (operation.leads model config sim).alike.1

section
variable {model : Model} {config : Config} {sim : Simulation}

theorem Alike.limit_eq (halike : Alike (.new model config) sim) :
    sim.limit = config.maxCascadeDepth := halike.limit

theorem Alike.symbols_eq (halike : Alike (.new model config) sim) :
    sim.model.symbols = model.symbols := halike.declared Model.symbols fun _ => rfl

theorem Alike.executables_eq (halike : Alike (.new model config) sim) :
    sim.model.executables = model.executables := halike.declared Model.executables fun _ => rfl

theorem Alike.constraints_eq (halike : Alike (.new model config) sim) :
    sim.model.constraints = model.constraints := halike.declared Model.constraints fun _ => rfl

theorem Alike.receiveTargets_eq (halike : Alike (.new model config) sim) (port : PortRef)
    (value : Value) :
    sim.model.receiveTargets sim.limit port value =
      model.receiveTargets config.maxCascadeDepth port value := by
  rw [halike.limit_eq]
  exact Model.receiveTargets_congr halike.outline ..

theorem Alike.sendChain_eq (halike : Alike (.new model config) sim) (port : PortRef) (value : Value) :
    sim.model.sendChain sim.limit port value =
      model.sendChain config.maxCascadeDepth port value := by
  rw [halike.limit_eq]
  exact Model.sendChain_congr halike.outline ..

end

end Archflow.Simulation

namespace Archflow

def relay : Model where
  name := "relay"
  components := .ofList [
    ("source", {
      name := "source"
      ports := [⟨"out", .output, "source", .boolean, some (.bool true)⟩] }),
    ("sink", {
      name := "sink"
      ports := [⟨"in", .input, "sink", .boolean, none⟩] })]
  flows := [⟨⟨"source", "out"⟩, ⟨"sink", "in"⟩, .boolean⟩]

end Archflow
