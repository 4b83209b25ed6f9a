import Archflow.Proofs.Standstill

/-!
A halt freezes the run. Every step of a run after the one that halts it is skipped, so the history of
a run that halts ends with that step. If this is the run of a protocol, its results are still put on
record; otherwise the fatal entry is the last one of the trace.
-/
namespace Archflow.Simulation

def RunOf (model : Model) (protocol : Protocol) (history : List Moment) : Prop :=
  protocol ∈ model.protocols.items ∧ ∃ component start, protocol.component = some component ∧
    history = protocolHistory start protocol component

/-- A history that halts at most once, and only in its last block. If results are put on record
after the halt, then that block is the run of the protocol they belong to. -/
inductive Ending (model : Model) (sim : Simulation) (history : List Moment) (last : Simulation) :
    Prop
  | intro {speaker : Option Protocol} {front block : List Moment} {mid : Simulation}
      (split : history = front ++ block) (running : ∀ protocol ∈ speaker, RunOf model protocol block)
      (lived : ∀ moment ∈ front, moment.sim.halted = false)
      (fatals_eq : mid.trace.fatals = sim.trace.fatals) (rest : HaltsOnce speaker mid block last)

namespace Ending

variable {model : Model} {sim mid last : Simulation} {history later : List Moment}

theorem of_calm (driven : Driven sim history last) (calm : Calm none history)
    (h : sim.halted = false) : Ending model sim history last :=
  @intro _ _ _ _ none [] history sim rfl (by simp) (by simp) rfl (.of_leads driven.leads calm h)

theorem of_live (driven : Driven sim history last) (live : Live history) (h : sim.halted = false) :
    Ending model sim history last := of_calm driven live.calm h

theorem of_runOf {protocol : Protocol} (driven : Driven sim history last)
    (calm : Calm (some protocol) history) (running : RunOf model protocol history)
    (h : sim.halted = false) : Ending model sim history last :=
  @intro _ _ _ _ (some protocol) [] history sim rfl (by simpa using running) (by simp) rfl
    (.of_leads driven.leads calm h)

theorem lived (ending : Ending model sim history last) (h : last.halted = false) :
    (∀ moment ∈ history, moment.sim.halted = false) ∧ last.trace.fatals = sim.trace.fatals := by
  obtain ⟨rfl, _, hlived, hfatals, rest⟩ := ending
  cases rest with
  | running _ hblock hlast => exact ⟨List.forall_mem_append.2 ⟨hlived, hblock⟩, hlast.trans hfatals⟩
  | stopped _ _ hhalted =>
    rw [h] at hhalted
    cases hhalted

/-- A piece is followed by one that is skipped after a halt. -/
theorem append (first : Ending model sim history mid)
    (second : mid.halted = false → Ending model mid later last)
    (skipped : mid.halted = true → later = [] ∧ last = mid) :
    Ending model sim (history ++ later) last := by
  cases hhalted : mid.halted with
  | true =>
    obtain ⟨rfl, rfl⟩ := skipped hhalted
    rw [List.append_nil]
    exact first
  | false =>
    obtain ⟨hlived, hfatals⟩ := first.lived hhalted
    obtain ⟨hsplit, running, hfront, hmid, rest⟩ := second hhalted
    refine .intro (by rw [hsplit, List.append_assoc]) running ?_ (hmid.trans hfatals) rest
    exact List.forall_mem_append.2 ⟨hlived, hfront⟩

end Ending

theorem unlessHalted_skipped {sim : Simulation} (h : sim.halted = true)
    (history : Simulation → List Moment) (step : Simulation → Simulation) :
    sim.unlessHaltedHistory history = [] ∧ sim.unlessHalted step = sim :=
  ⟨if_pos h, if_pos h⟩

section
variable {model : Model} {sim mid : Simulation} {history : List Moment}

theorem unlessHalted_ending {step : Simulation → Simulation}
    {stepHistory : Simulation → List Moment} (h : sim.halted = false)
    (taken : Ending model sim (stepHistory sim) (step sim)) :
    Ending model sim (sim.unlessHaltedHistory stepHistory) (sim.unlessHalted step) := by
  rw [show sim.unlessHaltedHistory stepHistory = stepHistory sim from if_neg (by simp [h]),
    show sim.unlessHalted step = step sim from if_neg (by simp [h])]
  exact taken

theorem Ending.unlessHalted {step : Simulation → Simulation}
    {stepHistory : Simulation → List Moment} (first : Ending model sim history mid)
    (second : mid.halted = false → Ending model mid (stepHistory mid) (step mid)) :
    Ending model sim (history ++ mid.unlessHaltedHistory stepHistory) (mid.unlessHalted step) :=
  first.append (fun hlive => unlessHalted_ending hlive (second hlive))
    fun hhalted => unlessHalted_skipped hhalted _ _

section
variable {α : Type} {step : Simulation → α → Simulation} {stepHistory : Simulation → α → List Moment}
  (skipped : ∀ sim item, sim.halted = true → stepHistory sim item = [] ∧ step sim item = sim)
include skipped

theorem foldl_skipped (items : List α) (h : sim.halted = true) :
    foldHistory step stepHistory items sim = [] ∧ items.foldl step sim = sim := by
  induction items with
  | nil => exact ⟨rfl, rfl⟩
  | cons item rest ih =>
    obtain ⟨hhistory, hstep⟩ := skipped sim item h
    rw [foldHistory, List.foldl_cons, hhistory, hstep]
    exact ih

theorem foldl_ending {items : List α}
    (taken : ∀ sim, ∀ item ∈ items, sim.halted = false →
      Ending model sim (stepHistory sim item) (step sim item)) (h : sim.halted = false) :
    Ending model sim (foldHistory step stepHistory items sim) (items.foldl step sim) := by
  induction items generalizing sim with
  | nil => exact .of_live (.nil sim) .nil h
  | cons item rest ih =>
    refine (taken sim item (by simp) h).append (fun hlive => ih (fun sim item hmem => ?_) hlive)
      fun hhalted => foldl_skipped skipped rest hhalted
    exact taken sim item (List.mem_cons_of_mem _ hmem)

end

theorem foldl_unlessHalted_ending {α : Type} {step : Simulation → α → Simulation}
    {stepHistory : Simulation → α → List Moment} {items : List α}
    (taken : ∀ sim item, sim.halted = false →
      Ending model sim (stepHistory sim item) (step sim item)) (h : sim.halted = false) :
    Ending model sim
      (foldHistory (fun sim item => sim.unlessHalted (step · item))
        (fun sim item => sim.unlessHaltedHistory (stepHistory · item)) items sim)
      (items.foldl (fun sim item => sim.unlessHalted (step · item)) sim) := by
  refine foldl_ending (fun _ _ hhalted => unlessHalted_skipped hhalted _ _)
    (fun sim item _ hlive => ?_) h
  exact unlessHalted_ending hlive (taken sim item hlive)

end

/-! The steps of a run. -/

theorem live_report {faults : List Fault} {sim : Simulation} (h : sim.halted = false)
    (hfaults : ∀ fault ∈ faults, fault.isFatal = false) :
    Live (foldHistory (fun sim fault => sim.fail "allocation" .log none fault)
      (fun sim fault => [⟨sim, .fail "allocation" .log none fault⟩]) faults sim) := by
  induction faults generalizing sim with
  | nil => exact .nil
  | cons fault rest ih =>
    obtain ⟨hfault, hrest⟩ := List.forall_mem_cons.1 hfaults
    refine .cons ⟨h, rfl⟩ (ih ?_ hrest)
    simp [fail, hfault, h]

section
variable {model : Model} {sim : Simulation} (h : sim.halted = false)
include h

theorem seedInputs_ending (ports : List (String × Value)) :
    Ending model sim (sim.seedInputsHistory ports) (Session.seedInputs sim ports) :=
  foldl_unlessHalted_ending (fun sim input hlive => .of_calm
    (sim.seedInput_driven input.1 input.2 hlive) (calm_seedInput hlive _ _) hlive) h

theorem propagateFlows_ending :
    Ending model sim sim.propagateFlowsHistory sim.propagateFlows :=
  foldl_unlessHalted_ending (fun sim index hlive => .of_calm
    (sim.propagate_driven index hlive) (calm_propagate hlive index) hlive) h

theorem orphans_ending (supplied : Table (List Value)) :
    Ending model sim (sim.orphansHistory supplied) (sim.runOrphans supplied) :=
  foldl_unlessHalted_ending (fun sim name hlive => .of_live
    (sim.orphan_driven supplied name) (live_orphan hlive supplied name) hlive) h

theorem protocols_ending (hmodel : sim.model.protocols = model.protocols) :
    Ending model sim sim.protocolsHistory sim.runProtocols := by
  refine foldl_ending (fun sim protocol hhalted => ?_) (fun sim protocol hmem hlive => ?_) h
  · cases protocol.component with
    | none => exact ⟨rfl, rfl⟩
    | some component => exact unlessHalted_skipped hhalted _ _
  · rw [hmodel] at hmem
    cases hcomponent : protocol.component with
    | none => exact .of_live (.nil sim) .nil hlive
    | some component =>
      refine unlessHalted_ending hlive ?_
      exact .of_runOf (sim.protocol_driven protocol component) (sim.calm_protocol protocol component)
        ⟨hmem, component, sim, hcomponent, rfl⟩ hlive

end

theorem propagated_ending (model : Model) (config : Config) (ports : List (String × Value)) :
    Ending model (.new model config) (propagatedHistory model config ports)
      (propagated model config ports) := by
  have hlive := reportProblems_new_halted model config
  generalize hreported : (new model config).reportProblems = reported at hlive
  have hreport : Driven (.new model config) (new model config).reportHistory reported :=
    hreported ▸ reportProblems_driven _
  have hseed : Driven reported [⟨reported, .seed⟩] reported.seedInitialValues :=
    .noted ⟨rfl, trivial, fun _ _ => hlive⟩ nofun
  have hseeded : Ending model (.new model config) _ reported.seedInitialValues :=
    .of_live (hreport.append hseed) ((live_report rfl (Realization.ofModel_not_fatal model)).append
      (.single ⟨hlive, rfl⟩)) rfl
  have hinputs := hseeded.append (fun h => seedInputs_ending h ports) fun hhalted => by
    rw [show reported.seedInitialValues.halted = false from hlive] at hhalted
    cases hhalted
  have hpropagated := hinputs.unlessHalted fun h => propagateFlows_ending h
  simpa [propagatedHistory, propagated, seededHistory, seeded, hreported] using hpropagated

theorem simulate_ending (model : Model) (config : Config) (inputs : Inputs) :
    Ending model (.new model config) (simulateHistory model config inputs)
      (Session.simulate model config inputs) := by
  have hpropagated := propagated_ending model config inputs.ports
  have hprotocols := (propagated_driven model config inputs.ports).leads.alike.1.declared
    Model.protocols fun _ => rfl
  have hcommunicated := hpropagated.unlessHalted fun h => protocols_ending h hprotocols
  have hrun := @Ending.unlessHalted _ _ _ _ (·.runOrphans inputs.executables)
    (·.orphansHistory inputs.executables) hcommunicated fun h => orphans_ending h inputs.executables
  rw [simulateHistory_eq, simulate_eq]
  simpa using hrun

end Archflow.Simulation

namespace Archflow

/-- A hub that sends to a composite sink and then looks at what it has sent. -/
def beacon : Model where
  name := "beacon"
  components := .ofList [
    ("hub", {
      name := "hub"
      ports := [⟨"line", .both, "hub", .boolean, none⟩] }),
    ("sink", {
      name := "sink"
      ports := [⟨"in", .input, "sink", .boolean, none⟩]
      subcomponents := ["core"]
      delegations := [⟨"in", ⟨"core", "in"⟩⟩] }),
    ("core", {
      name := "core"
      ports := [⟨"in", .input, "core", .boolean, none⟩] })]
  protocols := .ofList [("beat", {
    name := "beat"
    component := some "hub"
    actions := [.send "line" (.const (.bool true)), .receive "line" none]
    control := .once })]
  flows := [⟨⟨"hub", "line"⟩, ⟨"sink", "in"⟩, .boolean⟩]

namespace Session

open Simulation (Moment Leads Event RunOf Frozen)

/-- A halt freezes the run. The trace of a run has at most one fatal entry, namely one if the run has
halted and none otherwise. From the moment that entry is recorded no port value and no state changes,
and the only entries that are added tell of successes of the protocol that was running then. -/
theorem halt_freezes_run (session : Session) :
    let history := Simulation.simulateHistory session.model session.config session.inputs
    let last := session.run.simulation
    Leads Event.Checked (.new session.model session.config) history last ∧
      session.run.trace.fatals.length ≤ 1 ∧
      session.run.trace.halted = last.halted ∧
      (last.halted = true → ∃ front before moment later entry speaker,
        history = front ++ (before ++ moment :: later) ∧
          moment.Records entry ∧ session.run.trace.fatals = [entry] ∧
          (∀ protocol ∈ speaker, RunOf session.model protocol (before ++ moment :: later)) ∧
          Frozen speaker moment later last) := by
  have hdriven := Simulation.simulate_driven session.model session.config session.inputs
  have hending := Simulation.simulate_ending session.model session.config session.inputs
  refine ⟨hdriven.leads, ?_⟩
  rw [Trace.halted_eq]
  obtain ⟨hsplit, running, _, hfatals, rest⟩ := hending
  have hnone : (Simulation.new session.model session.config).trace.fatals = [] := rfl
  rw [hnone] at hfatals
  cases rest with
  | running live _ hlast =>
    have hempty : session.run.trace.fatals = [] := hlast.trans hfatals
    rw [hempty]
    refine ⟨by simp, live.symm, fun hhalted => ?_⟩
    rw [show session.run.simulation.halted = false from live] at hhalted
    cases hhalted
  | @stopped before later moment entry hblock records halted hlast frozen =>
    rw [hfatals] at hlast
    have hone : session.run.trace.fatals = [entry] := hlast
    rw [hblock] at hsplit running
    rw [hone]
    exact ⟨by simp, halted.symm, fun _ =>
      ⟨_, before, moment, later, entry, _, hsplit, records, rfl, running, frozen⟩⟩

theorem halt_freezes_run_beacon :
    let session : Session := {
      model := beacon
      inputs := {}
      config := { maxCascadeDepth := 0 }
      simulation := .new beacon { maxCascadeDepth := 0 } }
    session.run.simulation.halted = true ∧
      session.run.trace.entries.toList.map (·.kind) = [.log, .protocol, .protocol] ∧
      ∃ (moment : Moment) (entry : Trace.Entry), moment.Records entry ∧
        session.run.trace.fatals = [entry] ∧ session.run.simulation.model = moment.sim.model := by
  intro session
  have hhalted : session.run.simulation.halted = true := by decide +kernel
  obtain ⟨_, _, _, hfreeze⟩ := halt_freezes_run session
  obtain ⟨_, _, moment, _, entry, _, _, hrecords, hfatals, _, hfrozen⟩ := hfreeze hhalted
  exact ⟨hhalted, by decide +kernel, moment, entry, hrecords, hfatals, hfrozen.model_eq⟩

end Session
end Archflow
