import Archflow.Proofs.Driven

/-!
Work after an earlier trace. A simulation writes to its trace and never reads it; all that the trace
decides is the number of the next entry. So a simulation that starts with entries already on record
does the same as one that starts with none, and puts the same entries after the earlier ones,
numbered on from there.
-/
namespace Archflow

namespace Trace

def Entry.shift (count : Nat) (entry : Entry) : Entry := { entry with seq := count + entry.seq }

/-- A trace put after an earlier one. -/
def onto (earlier later : Trace) : Trace :=
  ⟨earlier.entries ++ later.entries.map (Entry.shift earlier.size)⟩

/-- The next entry gets the number it would get after the later trace alone, shifted. -/
theorem push_onto (earlier later : Trace) (element : String) (kind : StepKind)
    (input output : Option Value) (fault : Option Fault) :
    (earlier.onto later).push element kind input output fault =
      earlier.onto (later.push element kind input output fault) := by
  simp [push, onto, Entry.shift, size]

theorem entries_onto (earlier later : Trace) : (earlier.onto later).entries.toList =
    earlier.entries.toList ++ later.entries.toList.map (Entry.shift earlier.size) := by
  simp [onto]

theorem onto_empty (earlier : Trace) : earlier.onto {} = earlier := by
  simp [onto]

end Trace

namespace Simulation

def onto (earlier : Trace) (sim : Simulation) : Simulation :=
  { sim with trace := earlier.onto sim.trace }

variable {earlier : Trace} {sim : Simulation}

/-- A trace that starts empty becomes the earlier one. -/
theorem onto_blank (earlier : Trace) (sim : Simulation) :
    ({ sim with trace := {} } : Simulation).onto earlier = { sim with trace := earlier } := by
  simp only [onto, Trace.onto_empty]

@[simp] theorem onto_model : (sim.onto earlier).model = sim.model := rfl
@[simp] theorem onto_wiring : (sim.onto earlier).wiring = sim.wiring := rfl
@[simp] theorem onto_limit : (sim.onto earlier).limit = sim.limit := rfl
@[simp] theorem onto_wakeups : (sim.onto earlier).wakeups = sim.wakeups := rfl
@[simp] theorem onto_transmitted : (sim.onto earlier).transmitted = sim.transmitted := rfl
@[simp] theorem onto_halted : (sim.onto earlier).halted = sim.halted := rfl

theorem record_onto (element : String) (kind : StepKind) (input output : Option Value) :
    (sim.onto earlier).record element kind input output =
      (sim.record element kind input output).onto earlier :=
  congrArg (fun trace => { sim with trace }) (Trace.push_onto ..)

theorem halt_onto (fault : Fault) : (sim.onto earlier).halt fault = (sim.halt fault).onto earlier :=
  congrArg (fun trace => { sim.halt fault with trace }) (Trace.push_onto ..)

theorem fail_onto (element : String) (kind : StepKind) (input : Option Value) (fault : Fault) :
    (sim.onto earlier).fail element kind input fault =
      (sim.fail element kind input fault).onto earlier := by
  unfold fail
  split
  · exact halt_onto fault
  · exact congrArg (fun trace => { sim with trace }) (Trace.push_onto ..)

theorem failIf_onto (element : String) (kind : StepKind) (input : Option Value)
    (outcome : Except Fault Unit) :
    (sim.onto earlier).failIf element kind input outcome =
      (sim.failIf element kind input outcome).onto earlier := by
  cases outcome with
  | ok => rfl
  | error fault => exact fail_onto ..

theorem land_onto (value : Value) (port : PortRef) :
    (sim.onto earlier).land value port = (sim.land value port).onto earlier := by
  have hrecord := @record_onto earlier
    { sim with model := (sim.model.setPort port value).setState port.component port.port value }
    port.text .port none (some value)
  unfold land
  dsimp only [onto] at hrecord ⊢
  rw [hrecord]
  split <;> rfl

theorem lands_onto (value : Value) (targets : List PortRef) (sim : Simulation) :
    targets.foldl (fun sim target => sim.land value target) (sim.onto earlier) =
      (targets.foldl (fun sim target => sim.land value target) sim).onto earlier := by
  induction targets generalizing sim with
  | nil => rfl
  | cons port rest ih =>
    rw [List.foldl_cons, List.foldl_cons, land_onto]
    exact ih _

/-! Transmissions. -/

theorem receive_onto (port : PortRef) (value : Value) :
    (sim.onto earlier).receive port value = (sim.receive port value).map id (onto earlier) := by
  unfold receive
  rw [onto_model, onto_limit]
  cases sim.model.receiveTargets sim.limit port value with
  | error fault => rfl
  | ok targets => exact Prod.ext rfl (lands_onto value targets sim)

theorem transformed_onto (transform : Option String) (raw : Value) :
    (sim.onto earlier).transformed transform raw =
      (sim.transformed transform raw).map id (onto earlier) := by
  cases transform with
  | none => rfl
  | some name =>
    dsimp only [transformed, runTransform, onto]
    cases sim.model.executables.get? name with
    | none => rfl
    | some exe =>
      dsimp only
      cases exe.run [raw] sim.model.symbols with
      | error fault => rfl
      | ok result =>
        cases result with
        | none => rfl
        | some output => exact Prod.ext rfl (record_onto ..)

theorem deliver_onto (delivery : Delivery) :
    (sim.onto earlier).deliver delivery = (sim.deliver delivery).map id (onto earlier) := by
  unfold deliver
  rw [onto_wiring]
  cases sim.wiring.links[delivery.link]? with
  | none => rfl
  | some link =>
    have hfunctions : (sim.onto earlier).functionsOf link = sim.functionsOf link := rfl
    dsimp only
    rw [hfunctions, transformed_onto]
    rcases sim.transformed (sim.functionsOf link).transform delivery.value with ⟨carried, ran⟩
    cases carried with
    | error fault => rfl
    | ok carried =>
      have hcheck : (ran.onto earlier).checkCarried link (sim.functionsOf link).constraint
          delivery.value carried = ran.checkCarried link (sim.functionsOf link).constraint
          delivery.value carried := rfl
      dsimp only [Prod.map, id]
      rw [hcheck]
      cases ran.checkCarried link (sim.functionsOf link).constraint delivery.value carried with
      | error fault => rfl
      | ok => exact receive_onto ..

theorem serve_onto (name : String) (delivery : Delivery) :
    (sim.onto earlier).serve name delivery = (sim.serve name delivery).onto earlier := by
  unfold serve
  rw [show (Event.deliver name delivery).effect (sim.onto earlier) =
    ((Event.deliver name delivery).effect sim).onto earlier from rfl, deliver_onto]
  exact failIf_onto ..

theorem pumpLoop_onto (name : String) (count : Nat) (sim : Simulation) :
    pumpLoop name count (sim.onto earlier) = (pumpLoop name count sim).onto earlier := by
  induction count generalizing sim with
  | zero => rfl
  | succ count ih =>
    rw [pumpLoop_succ, pumpLoop_succ, onto_wiring]
    cases (sim.wiring.channel name).next? with
    | none => rfl
    | some next =>
      dsimp only
      rw [serve_onto, onto_halted, ih, apply_ite (onto earlier)]

theorem pump_onto (name : String) : (sim.onto earlier).pump name = (sim.pump name).onto earlier := by
  unfold pump
  rw [onto_wiring]
  cases (sim.wiring.channel name).begin? with
  | none => rfl
  | some channel => exact pumpLoop_onto name channel.size (sim.putChannel name channel)

theorem transmit_onto (index : Nat) (value : Value) :
    (sim.onto earlier).transmit index value = (sim.transmit index value).onto earlier := by
  cases hlink : sim.wiring.links[index]? with
  | none => simp only [transmit, onto_wiring, hlink]
  | some link =>
    have hsame : (sim.onto earlier).wiring.links[index]? = some link := hlink
    have heffect : (Event.transmit index value).effect (sim.onto earlier) =
        ((Event.transmit index value).effect sim).onto earlier := by
      simp only [Event.effect, hsame, hlink]
      rfl
    rw [transmit_eq hlink, transmit_eq hsame, heffect, pump_onto]

theorem transmitAll_onto (value : Value) (indices : List Nat) (sim : Simulation) :
    transmitAll value indices (sim.onto earlier) = (transmitAll value indices sim).onto earlier := by
  induction indices generalizing sim with
  | nil => rfl
  | cons index rest ih =>
    rw [transmitAll, transmitAll, onto_halted, transmit_onto, ih, apply_ite (onto earlier)]

theorem sendAlong_onto (chain : List PortRef) (value : Value) :
    (sim.onto earlier).sendAlong chain value = (sim.sendAlong chain value).onto earlier :=
  transmitAll_onto value (chain.flatMap sim.wiring.linksFrom)
    { sim with model := chain.foldl (fun model port => model.setPort port value) sim.model }

theorem send_onto (port : PortRef) (value : Value) :
    (sim.onto earlier).send port value = (sim.send port value).map id (onto earlier) := by
  unfold send
  rw [onto_model, onto_limit]
  cases sim.model.sendChain sim.limit port value with
  | error fault => rfl
  | ok chain => exact Prod.ext rfl (sendAlong_onto chain value)

/-! Reactions. -/

theorem emit_onto (firing : Firing) (result : Option Value) :
    (sim.onto earlier).emit firing result = (sim.emit firing result).map id (onto earlier) := by
  unfold emit
  cases firing.outputKey with
  | none => rfl
  | some key =>
    cases result with
    | none => rfl
    | some value =>
      have hchain : (sim.onto earlier).resultChain firing value = sim.resultChain firing value := rfl
      dsimp only
      rw [hchain]
      cases sim.resultChain firing value with
      | error fault => rfl
      | ok chain =>
        let model := sim.model.setState firing.component key value
        exact Prod.ext rfl (@sendAlong_onto earlier { sim with model } chain value)

theorem execute_onto (firing : Firing) :
    (sim.onto earlier).execute firing = (sim.execute firing).map id (onto earlier) := by
  unfold execute
  have hconstraint : (sim.onto earlier).constraintOf firing = sim.constraintOf firing := rfl
  rw [onto_model, hconstraint]
  cases sim.model.executables.get? firing.executable with
  | none => rfl
  | some exe =>
    cases sim.constraintOf firing with
    | error fault => rfl
    | ok constraint =>
      have hcompute : (sim.onto earlier).compute firing exe constraint =
          sim.compute firing exe constraint := rfl
      dsimp only
      rw [hcompute]
      cases sim.compute firing exe constraint with
      | error fault => rfl
      | ok result =>
        dsimp only
        rw [record_onto]
        generalize sim.record firing.executable .exec (some (exe.callRecord firing.args)) result = ran
        have hcheck : (ran.onto earlier).checkResult firing constraint result =
            ran.checkResult firing constraint result := rfl
        rw [hcheck]
        cases ran.checkResult firing constraint result with
        | error fault => rfl
        | ok => exact emit_onto ..

theorem firingFor?_onto (wakeup : Wakeup) (activity : String) :
    (sim.onto earlier).firingFor? wakeup activity = sim.firingFor? wakeup activity := by
  have hfirst (component : Component) (ports : List String) :
      (sim.onto earlier).firstFiring? component activity ports =
        sim.firstFiring? component activity ports := by
    induction ports with
    | nil => rfl
    | cons port rest ih =>
      rw [firstFiring?, firstFiring?, ih]
      rfl
  unfold firingFor?
  dsimp only [onto]
  cases sim.model.components.get? wakeup.component with
  | none => rfl
  | some component => exact hfirst component wakeup.ports

theorem tryActivity_onto (wakeup : Wakeup) (activity : String) :
    (sim.onto earlier).tryActivity wakeup activity = (sim.tryActivity wakeup activity).onto earlier := by
  unfold tryActivity
  rw [firingFor?_onto]
  cases sim.firingFor? wakeup activity with
  | error fault => exact fail_onto ..
  | ok plan =>
    cases plan with
    | none => rfl
    | some firing =>
      dsimp only
      rw [execute_onto]
      exact failIf_onto ..

theorem tryActivities_onto (wakeup : Wakeup) (activities : List String) (sim : Simulation) :
    tryActivities wakeup activities (sim.onto earlier) =
      (tryActivities wakeup activities sim).onto earlier := by
  induction activities generalizing sim with
  | nil => rfl
  | cons activity rest ih =>
    rw [tryActivities, tryActivities, onto_halted, tryActivity_onto, ih, apply_ite (onto earlier)]

theorem wake_onto (wakeup : Wakeup) : (sim.onto earlier).wake wakeup = (sim.wake wakeup).onto earlier :=
  congrArg (fun woken : Simulation => { woken with depth := sim.depth })
    (tryActivities_onto wakeup (sim.realization.activitiesOf wakeup.component)
      { sim with depth := wakeup.depth + 1 })

theorem drainLoop_onto (fuel : Nat) (sim : Simulation) :
    drainLoop fuel (sim.onto earlier) = (drainLoop fuel sim).onto earlier := by
  induction fuel generalizing sim with
  | zero => rfl
  | succ fuel ih =>
    rw [drainLoop, drainLoop, onto_wakeups]
    cases sim.wakeups with
    | nil => rfl
    | cons wakeup rest =>
      let popped : Simulation := { sim with wakeups := rest }
      change (if popped.halted then popped.onto earlier
        else if popped.limit < wakeup.depth then
          (popped.onto earlier).halt (.cascadeLimitExceeded popped.limit)
        else drainLoop fuel ((popped.onto earlier).wake wakeup)) =
          Simulation.onto earlier (if popped.halted then popped
            else if popped.limit < wakeup.depth then popped.halt (.cascadeLimitExceeded popped.limit)
            else drainLoop fuel (popped.wake wakeup))
      rw [halt_onto, wake_onto, ih]
      split
      · rfl
      · split <;> rfl

theorem drain_onto : (sim.onto earlier).drain = sim.drain.onto earlier :=
  drainLoop_onto sim.drainBound sim

/-! Runs. -/

theorem unlessHalted_onto {step : Simulation → Simulation}
    (h : step (sim.onto earlier) = (step sim).onto earlier) :
    (sim.onto earlier).unlessHalted step = (sim.unlessHalted step).onto earlier := by
  unfold unlessHalted
  rw [h, onto_halted, apply_ite (onto earlier)]

theorem foldl_onto {α : Type} {step : Simulation → α → Simulation}
    (h : ∀ sim item, step (sim.onto earlier) item = (step sim item).onto earlier) (items : List α)
    (sim : Simulation) :
    items.foldl step (sim.onto earlier) = (items.foldl step sim).onto earlier := by
  induction items generalizing sim with
  | nil => rfl
  | cons item rest ih =>
    rw [List.foldl_cons, List.foldl_cons, h]
    exact ih _

theorem inject_onto (port : PortRef) (value : Value) :
    (sim.onto earlier).inject port value = (sim.inject port value).map id (onto earlier) := by
  unfold inject
  rw [receive_onto, onto_model]
  cases sim.model.resolve port with
  | error fault => rfl
  | ok resolved =>
    dsimp only
    split
    · rfl
    · cases resolved.checkPayload sim.model.symbols value <;> rfl

theorem injectNamed_onto (qualified : String) (value : Value) :
    (sim.onto earlier).injectNamed qualified value =
      (sim.injectNamed qualified value).map id (onto earlier) := by
  unfold injectNamed
  cases PortRef.parse qualified with
  | error fault => rfl
  | ok port => exact inject_onto port value

theorem seedInput_onto (qualified : String) (value : Value) :
    (sim.onto earlier).seedInput qualified value = (sim.seedInput qualified value).onto earlier := by
  unfold seedInput
  rw [injectNamed_onto]
  dsimp only [Prod.map, id]
  rw [failIf_onto, drain_onto]

theorem seedInputs_onto (ports : List (String × Value)) :
    Session.seedInputs (sim.onto earlier) ports = (Session.seedInputs sim ports).onto earlier := by
  refine foldl_onto (fun _ input => ?_) ports sim
  exact unlessHalted_onto (seedInput_onto input.1 input.2)

theorem propagate_onto (index : Nat) :
    (sim.onto earlier).propagate index = (sim.propagate index).onto earlier := by
  unfold propagate
  rw [onto_transmitted, onto_wiring, onto_model]
  split
  · rfl
  · cases sim.wiring.links[index]?.bind fun link => (sim.model.port? link.source).bind Port.value with
    | none => rfl
    | some value =>
      dsimp only
      rw [transmit_onto, drain_onto]

theorem propagateFlows_onto :
    (sim.onto earlier).propagateFlows = sim.propagateFlows.onto earlier := by
  refine foldl_onto (fun _ index => ?_) sim.wiring.schedule sim
  exact unlessHalted_onto (propagate_onto index)

/-- Protocols do not see the trace. -/
theorem componentAccess_onto (earlier : Trace) (component : String) :
    (componentAccess component).Maps (onto earlier) (componentAccess component) where
  direction _ _ := rfl
  current _ _ := rfl
  send sim port value := by
    dsimp only [componentAccess]
    rw [onto_halted, onto_limit, send_onto]
    split
    · rfl
    · rcases sim.send ⟨component, port⟩ value with ⟨outcome, sent⟩
      cases outcome with
      | error fault => rfl
      | ok => exact congrArg Except.ok drain_onto

theorem runProtocol_onto (protocol : Protocol) (component : String) :
    (sim.onto earlier).runProtocol protocol component =
      (sim.runProtocol protocol component).onto earlier := by
  have hmap := Protocol.Machine.run_map protocol sim.model.symbols
    (componentAccess_onto earlier component) sim.config.protocolIterations {} sim
  have hbound : (sim.onto earlier).config.protocolIterations = sim.config.protocolIterations := rfl
  unfold runProtocol
  rw [onto_model, hbound, hmap]
  rcases Protocol.Machine.run {} protocol (componentAccess component) sim.model.symbols
    sim.config.protocolIterations sim with ⟨outcome, machine, store⟩
  dsimp only [Prod.map, id]
  rw [foldl_onto fun _ _ => record_onto ..]
  exact unlessHalted_onto (failIf_onto ..)

theorem runProtocols_onto : (sim.onto earlier).runProtocols = sim.runProtocols.onto earlier := by
  refine foldl_onto (fun sim protocol => ?_) sim.model.protocols.items sim
  cases protocol.component with
  | none => rfl
  | some component => exact unlessHalted_onto (runProtocol_onto protocol component)

theorem runOrphan_onto (supplied : Table (List Value)) (name : String) :
    (sim.onto earlier).runOrphan supplied name = (sim.runOrphan supplied name).onto earlier := by
  unfold runOrphan
  rw [onto_model]
  cases sim.model.executables.get? name with
  | none => rfl
  | some exe =>
    dsimp only
    cases exe.run ((supplied.get? name).getD (exe.defaultArguments sim.model.symbols))
      sim.model.symbols with
    | error fault => exact fail_onto ..
    | ok output => exact record_onto ..

theorem runOrphans_onto (supplied : Table (List Value)) :
    (sim.onto earlier).runOrphans supplied = (sim.runOrphans supplied).onto earlier := by
  refine foldl_onto (fun _ name => ?_) _ sim
  exact unlessHalted_onto (runOrphan_onto supplied name)

end Simulation
end Archflow
