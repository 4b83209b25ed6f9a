import Archflow.Proofs.Delivery
import Archflow.Proofs.Freeze
import Archflow.Proofs.Limit

/-!
The cascade limit is only a cut-off. Every phase of a run, every protocol in it and every value from
outside leads to the same state under a larger limit, as long as the run does not halt. A session in
which no call halts therefore returns the same answers under every larger limit, and is left with the
same trace and the same model.
-/
namespace Archflow

namespace Simulation

variable {limit : Nat} {sim : Simulation}

theorem inject_raise (hle : sim.limit ≤ limit) {port : PortRef} {value : Value}
    (h : Harmless (sim.inject port value).1) :
    (sim.raise limit).inject port value = (sim.inject port value).map id (raise limit) := by
  unfold inject at h ⊢
  have hmodel : (sim.raise limit).model = sim.model := rfl
  rw [hmodel]
  cases hresolve : sim.model.resolve port with
  | error fault => rfl
  | ok resolved =>
    simp only [hresolve] at h
    dsimp only
    cases hreceive : resolved.direction.canReceive with
    | true =>
      simp only [hreceive, if_true] at h ⊢
      exact receive_raise hle h
    | false =>
      simp only [Bool.false_eq_true, if_false]
      cases resolved.checkPayload sim.model.symbols value <;> rfl

theorem injectNamed_raise (hle : sim.limit ≤ limit) {qualified : String} {value : Value}
    (h : Harmless (sim.injectNamed qualified value).1) :
    (sim.raise limit).injectNamed qualified value =
      (sim.injectNamed qualified value).map id (raise limit) := by
  unfold injectNamed at h ⊢
  cases hparse : PortRef.parse qualified with
  | error fault => rfl
  | ok port =>
    rw [hparse] at h
    exact inject_raise hle h

theorem submit_raise (hle : sim.limit ≤ limit) {qualified : String} {value : Value}
    (h : Harmless (sim.submit qualified value).1)
    (hlive : (sim.submit qualified value).2.halted = false) :
    (sim.raise limit).submit qualified value =
      (sim.submit qualified value).map id (raise limit) := by
  unfold submit at h hlive ⊢
  have hmodel : (sim.raise limit).model = sim.model := rfl
  rw [hmodel]
  cases hparse : PortRef.parse qualified with
  | error fault => rfl
  | ok port =>
    simp only [hparse] at h hlive
    dsimp only
    cases hresolve : sim.model.resolve port with
    | error fault => rfl
    | ok resolved =>
      simp only [hresolve] at h hlive
      dsimp only
      cases hsend : resolved.direction.canSend with
      | true =>
        simp only [hsend, if_true] at h hlive ⊢
        exact send_raise hle h hlive
      | false =>
        simp only [hsend, Bool.false_eq_true, if_false] at h hlive ⊢
        exact receive_raise hle h

theorem live_of_unlessHalted {step : Simulation → Simulation}
    (h : (sim.unlessHalted step).halted = false) :
    sim.halted = false ∧ sim.unlessHalted step = step sim := by
  unfold unlessHalted at h ⊢
  cases hhalted : sim.halted with
  | true => simp [hhalted] at h
  | false => simp

theorem unlessHalted_raise {step : Simulation → Simulation}
    (h : sim.halted = false → (step sim).halted = false →
      step (sim.raise limit) = (step sim).raise limit)
    (hlive : (sim.unlessHalted step).halted = false) :
    (sim.raise limit).unlessHalted step = (sim.unlessHalted step).raise limit := by
  obtain ⟨hgoing, htaken⟩ := live_of_unlessHalted hlive
  rw [htaken] at hlive ⊢
  have hraised : (sim.raise limit).unlessHalted step = step (sim.raise limit) :=
    if_neg (by simp [raise, hgoing])
  exact hraised.trans (h hgoing hlive)

theorem Steady.unlessHalted {model : Model} {config : Config} {step : Simulation → Simulation}
    (h : Steady model config sim) (taken : sim.halted = false → Steady model config (step sim)) :
    Steady model config (sim.unlessHalted step) := by
  unfold Simulation.unlessHalted
  split
  · exact h
  · next hhalted => exact taken (Bool.eq_false_iff.2 hhalted)

section
variable {α : Type} {step : Simulation → α → Simulation}
  (hstart : ∀ sim item, (step sim item).halted = false → sim.halted = false)
include hstart

theorem live_of_foldl {items : List α} {sim : Simulation}
    (h : (items.foldl step sim).halted = false) : sim.halted = false := by
  induction items generalizing sim with
  | nil => exact h
  | cons item rest ih => exact hstart sim item (ih h)

theorem foldl_raise {model : Model} {config : Config} {items : List α} {sim : Simulation}
    (kept : ∀ sim item, Steady model config sim → Steady model config (step sim item))
    (taken : ∀ sim item, Steady model config sim → (step sim item).halted = false →
      step (sim.raise limit) item = (step sim item).raise limit)
    (h : Steady model config sim) (hlive : (items.foldl step sim).halted = false) :
    items.foldl step (sim.raise limit) = (items.foldl step sim).raise limit := by
  induction items generalizing sim with
  | nil => rfl
  | cons item rest ih =>
    rw [List.foldl_cons] at hlive ⊢
    rw [List.foldl_cons, taken sim item h (live_of_foldl hstart hlive)]
    exact ih (kept sim item h) hlive

end

section
variable {model : Model} {config : Config} (hle : config.maxCascadeDepth ≤ limit)
  (h : Steady model config sim)
include hle h

theorem Steady.limit_le : sim.limit ≤ limit := h.alike.limit ▸ hle

theorem seedInput_raise {qualified : String} {value : Value} (hgoing : sim.halted = false)
    (hlive : (sim.seedInput qualified value).halted = false) :
    (sim.raise limit).seedInput qualified value = (sim.seedInput qualified value).raise limit := by
  have hcourse := (injectNamed_course sim qualified value hgoing).append
    (.of_leads (failIf_leads True (sim.injectNamed qualified value).2 qualified .log (some value)
      (sim.injectNamed qualified value).1))
  have hsteady := Steady.of_course hcourse h
  have hfailed := live_of_drainLoop hlive
  unfold seedInput at hlive ⊢
  rw [injectNamed_raise (h.limit_le hle) (harmless_of_failIf hfailed)]
  dsimp only [Prod.map, id]
  rw [failIf_raise]
  exact drain_raise hsteady (hsteady.limit_le hle) hlive

theorem propagate_raise {index : Nat} (hlive : (sim.propagate index).halted = false) :
    (sim.raise limit).propagate index = (sim.propagate index).raise limit := by
  unfold propagate at hlive ⊢
  have hmodel : (sim.raise limit).model = sim.model := rfl
  have hwiring : (sim.raise limit).wiring = sim.wiring := rfl
  have htransmitted : (sim.raise limit).transmitted = sim.transmitted := rfl
  rw [hmodel, hwiring, htransmitted]
  split
  · rfl
  · next hfresh =>
    rw [if_neg hfresh] at hlive
    cases hvalue : sim.wiring.links[index]?.bind
      fun link => (sim.model.port? link.source).bind Port.value with
    | none => rfl
    | some value =>
      simp only [hvalue] at hlive
      have hleads := (sim.transmit_leads index value).mono fun _ _ => Event.Carries.works
      have hsteady := (Steady.of_leads hleads h).1
      dsimp only
      rw [transmit_raise (h.limit_le hle) (live_of_drainLoop hlive)]
      exact drain_raise hsteady (hsteady.limit_le hle) hlive

theorem seedInputs_raise {ports : List (String × Value)}
    (hlive : (Session.seedInputs sim ports).halted = false) :
    Session.seedInputs (sim.raise limit) ports = (Session.seedInputs sim ports).raise limit := by
  refine foldl_raise (fun _ _ hlive => (live_of_unlessHalted hlive).1)
    (fun sim input hsteady => hsteady.unlessHalted fun hgoing => ?_)
    (fun sim input hsteady => ?_) h hlive
  · exact ((sim.seedInput_driven input.1 input.2 hgoing).steady hsteady).1
  · exact unlessHalted_raise fun hgoing => seedInput_raise hle hsteady hgoing

theorem propagateFlows_raise (hlive : sim.propagateFlows.halted = false) :
    (sim.raise limit).propagateFlows = sim.propagateFlows.raise limit := by
  refine foldl_raise (fun _ _ hlive => (live_of_unlessHalted hlive).1)
    (fun sim index hsteady => hsteady.unlessHalted fun hgoing => ?_)
    (fun sim index hsteady => ?_) h hlive
  · exact ((sim.propagate_driven index hgoing).steady hsteady).1
  · exact unlessHalted_raise fun _ => propagate_raise hle hsteady

omit hle in
theorem Steady.send (hgoing : sim.halted = false) (port : PortRef) (value : Value) :
    Steady model config (sim.send port value).2 := by
  have hcourse : Course (Event.Plain True) sim _ _ := send_course sim port value fun _ => hgoing
  exact Steady.of_course hcourse h

omit h in
/-- A protocol sees the same ports under a larger limit, and as long as the run does not halt it can
send the same values. -/
theorem componentAccess_tracks (component : String) :
    (componentAccess component).Tracks (raise limit) (componentAccess component)
      (Steady model config) (fun sim => sim.halted = false) fun fault => fault.isFatal = false where
  direction _ _ _ := rfl
  current _ _ _ := rfl
  kept sim port value next hsend h := by
    obtain ⟨hgoing, rfl⟩ := componentAccess_send hsend
    exact (h.send hgoing ⟨component, port⟩ value).drain
  alive_of _ _ _ _ hsend _ := (componentAccess_send hsend).1
  send sim port value h _ hlive hmild := by
    have hgoing : sim.halted = false := by
      cases hhalted : sim.halted with
      | false => rfl
      | true => cases hmild (.cascadeLimitExceeded sim.limit) (by simp [componentAccess, hhalted])
    have hraised : (sim.raise limit).halted = false := hgoing
    have hsteady := h.send hgoing ⟨component, port⟩ value
    have hsame := @send_raise limit sim (h.limit_le hle) ⟨component, port⟩ value
    simp only [componentAccess, hgoing, hraised, Bool.false_eq_true, if_false] at hlive hmild ⊢
    rcases hsend : sim.send ⟨component, port⟩ value with ⟨outcome, sent⟩
    rw [hsend] at hlive hmild hsteady hsame
    cases outcome with
    | error fault =>
      obtain ⟨rfl, _⟩ := send_error hsend
      rw [hsame (Harmless.error hmild) hgoing]
      rfl
    | ok =>
      have hdrained : sent.drain.halted = false := hlive sent.drain rfl
      rw [hsame (fun _ hfault => by cases hfault) (live_of_drainLoop hdrained)]
      exact congrArg Except.ok (drain_raise hsteady (hsteady.limit_le hle) hdrained)

omit hle h in
theorem records_raise (protocol : Protocol) (results : List Protocol.Result) (sim : Simulation) :
    results.foldl (recordResult protocol) (sim.raise limit) =
      (results.foldl (recordResult protocol) sim).raise limit := by
  induction results generalizing sim with
  | nil => rfl
  | cons result rest ih => exact ih (recordResult protocol sim result)

omit hle h in
theorem halted_records (protocol : Protocol) (results : List Protocol.Result) (sim : Simulation) :
    (results.foldl (recordResult protocol) sim).halted = sim.halted := by
  induction results generalizing sim with
  | nil => rfl
  | cons result rest ih => exact ih (recordResult protocol sim result)

theorem runProtocol_raise {protocol : Protocol} {component : String}
    (hlive : (sim.runProtocol protocol component).halted = false) :
    (sim.raise limit).runProtocol protocol component =
      (sim.runProtocol protocol component).raise limit := by
  have htracks := @Protocol.Machine.run_tracks _ _ _ _ _ _ _ _
    (componentAccess_tracks hle component) protocol sim.model.symbols sim.config.protocolIterations
    {} sim h
  have hsymbols : (sim.raise limit).model.symbols = sim.model.symbols := rfl
  have hbound : (sim.raise limit).config.protocolIterations = sim.config.protocolIterations := rfl
  unfold runProtocol at hlive ⊢
  rw [hsymbols, hbound]
  rcases hrun : Protocol.Machine.run {} protocol (componentAccess component) sim.model.symbols
    sim.config.protocolIterations sim with ⟨outcome, machine, store⟩
  rw [hrun] at hlive htracks
  dsimp only at hlive htracks
  obtain ⟨hgoing, htaken⟩ := live_of_unlessHalted hlive
  rw [htaken] at hlive
  rw [htracks ((halted_records ..).symm.trans hgoing) (harmless_of_failIf hlive)]
  dsimp only [Prod.map, id]
  rw [records_raise]
  exact unlessHalted_raise (fun _ _ => failIf_raise ..) (htaken ▸ hlive)

theorem runProtocols_raise (hlive : sim.runProtocols.halted = false) :
    (sim.raise limit).runProtocols = sim.runProtocols.raise limit := by
  refine foldl_raise (fun sim protocol hlive => ?_) (fun sim protocol hsteady => ?_)
    (fun sim protocol hsteady hlive => ?_) h hlive
  · cases hcomponent : protocol.component with
    | none =>
      rw [hcomponent] at hlive
      exact hlive
    | some component =>
      rw [hcomponent] at hlive
      exact (live_of_unlessHalted hlive).1
  · cases protocol.component with
    | none => exact hsteady
    | some component =>
      exact hsteady.unlessHalted fun _ => ((sim.protocol_driven protocol component).steady hsteady).1
  · cases hcomponent : protocol.component with
    | none => rfl
    | some component =>
      rw [hcomponent] at hlive
      exact unlessHalted_raise (fun _ => runProtocol_raise hle hsteady) hlive

omit hle h in
theorem runOrphan_raise (supplied : Table (List Value)) (name : String) :
    (sim.raise limit).runOrphan supplied name = (sim.runOrphan supplied name).raise limit := by
  have hmodel : (sim.raise limit).model = sim.model := rfl
  unfold runOrphan
  rw [hmodel]
  cases sim.model.executables.get? name with
  | none => rfl
  | some exe =>
    dsimp only
    cases exe.run ((supplied.get? name).getD (exe.defaultArguments sim.model.symbols))
      sim.model.symbols with
    | error fault => exact fail_raise ..
    | ok output => rfl

omit hle in
theorem runOrphans_raise {supplied : Table (List Value)}
    (hlive : (sim.runOrphans supplied).halted = false) :
    (sim.raise limit).runOrphans supplied = (sim.runOrphans supplied).raise limit := by
  refine foldl_raise (fun _ _ hlive => (live_of_unlessHalted hlive).1)
    (fun sim name hsteady => hsteady.unlessHalted fun _ => ?_) (fun sim name _ => ?_) h hlive
  · exact ((sim.orphan_driven supplied name).steady hsteady).1
  · exact unlessHalted_raise fun _ _ => runOrphan_raise supplied name

theorem sendToPort_raise {qualified : String} {value : Value}
    (hlive : (sim.sendToPort qualified value).2.halted = false) :
    (sim.raise limit).sendToPort qualified value =
      (sim.sendToPort qualified value).map id (raise limit) := by
  have hresumed := h.resumed
  have hcourse := submit_course { sim with halted := false } qualified value rfl
  have hsteady := Steady.of_course hcourse hresumed
  have hsame := @submit_raise limit { sim with halted := false } (hresumed.limit_le hle) qualified value
  have hresume : { sim.raise limit with halted := false } =
      { sim with halted := false }.raise limit := rfl
  unfold sendToPort at hlive ⊢
  rw [hresume]
  rcases hsubmit : submit { sim with halted := false } qualified value with ⟨outcome, submitted⟩
  rw [hsubmit] at hlive hsteady hsame
  cases outcome with
  | error fault =>
    have hmild := @harmless_of_failIf submitted qualified .log (some value) (.error fault) hlive
    obtain ⟨rfl, _⟩ := submit_error hsubmit
    rw [hsame hmild rfl]
    exact Prod.ext rfl (fail_raise ..)
  | ok =>
    have hdrained : submitted.drain.halted = false := hlive
    rw [hsame (fun _ hfault => by cases hfault) (live_of_drainLoop hdrained)]
    dsimp only [Prod.map, id]
    rw [drain_raise hsteady (hsteady.limit_le hle) hdrained]
    rfl

end

theorem reportProblems_raise :
    (sim.raise limit).reportProblems = sim.reportProblems.raise limit := by
  have hfold (problems : List Fault) (sim : Simulation) :
      problems.foldl (fun sim fault => sim.fail "allocation" .log none fault) (sim.raise limit) =
        (problems.foldl (fun sim fault => sim.fail "allocation" .log none fault) sim).raise limit := by
    induction problems generalizing sim with
    | nil => rfl
    | cons fault rest ih =>
      rw [List.foldl_cons, List.foldl_cons, fail_raise]
      exact ih _
  exact hfold sim.problems sim

theorem simulate_raise {model : Model} {config : Config} {inputs : Inputs}
    (hle : config.maxCascadeDepth ≤ limit)
    (hlive : (Session.simulate model config inputs).halted = false) :
    Session.simulate model { config with maxCascadeDepth := limit } inputs =
      (Session.simulate model config inputs).raise limit := by
  have hreported := ((reportProblems_driven _).steady (.new model config)).1
  have hstart : Steady model config (new model config).reportProblems.seedInitialValues :=
    @Steady.effect _ _ _ hreported .seed rfl
  have hraised : (new model { config with maxCascadeDepth := limit }).reportProblems.seedInitialValues =
      (new model config).reportProblems.seedInitialValues.raise limit := by
    change ((new model config).raise limit).reportProblems.seedInitialValues = _
    rw [reportProblems_raise]
    rfl
  unfold Session.simulate at hlive ⊢
  rw [hraised]
  dsimp only at hlive ⊢
  -- None of the phases has halted, as each is skipped after a halt.
  have hcommunicated := (live_of_unlessHalted hlive).1
  have hpropagated := (live_of_unlessHalted hcommunicated).1
  have hseeded := (live_of_unlessHalted hpropagated).1
  have hsteady_seeded := ((seedInputs_driven _ inputs.ports).steady hstart).1
  have hsteady_propagated := hsteady_seeded.unlessHalted fun _ =>
    ((propagateFlows_driven _).steady hsteady_seeded).1
  have hsteady_communicated := hsteady_propagated.unlessHalted fun _ =>
    ((protocols_driven _).steady hsteady_propagated).1
  rw [seedInputs_raise hle hstart hseeded,
    unlessHalted_raise (fun _ => propagateFlows_raise hle hsteady_seeded) hpropagated,
    unlessHalted_raise (fun _ => runProtocols_raise hle hsteady_propagated) hcommunicated,
    unlessHalted_raise (fun _ => runOrphans_raise hsteady_communicated) hlive]

end Simulation

namespace Session

inductive Answer where
  | none
  | trace (trace : Trace)
  | accepted (accepted : Bool)

def answer (session : Session) : Call → Answer
  | .setInputs _ => .none
  | .run => .trace session.run.trace
  | .sendToPort qualified value => .accepted (session.sendToPort qualified value).1

def answers (session : Session) : List Call → List Answer
  | [] => []
  | call :: rest => session.answer call :: (session.perform call).answers rest

def NeverHalts (session : Session) : List Call → Prop
  | [] => True
  | call :: rest =>
      (session.perform call).simulation.halted = false ∧ (session.perform call).NeverHalts rest

def raise (limit : Nat) (session : Session) : Session :=
  { session with
    config := { session.config with maxCascadeDepth := limit }
    simulation := session.simulation.raise limit }

variable {model : Model} {config : Config} {session : Session} {limit : Nat}

theorem load_raise (h : load model config = .ok session) :
    load model { config with maxCascadeDepth := limit } = .ok (session.raise limit) := by
  unfold load at h ⊢
  cases hvalid : model.validate with
  | error fault =>
    rw [hvalid] at h
    cases h
  | ok =>
    rw [hvalid] at h
    cases h
    rfl

/-- A call that does not halt does the same under a larger limit. -/
theorem Resting.call_raise (h : Resting model config session)
    (hle : config.maxCascadeDepth ≤ limit) {call : Call}
    (hlive : (session.perform call).simulation.halted = false) :
    (session.raise limit).perform call = (session.perform call).raise limit ∧
      (session.raise limit).answer call = session.answer call := by
  cases call with
  | setInputs inputs => exact ⟨rfl, rfl⟩
  | run =>
    obtain rfl := h.config_eq
    have hsame := Simulation.simulate_raise hle hlive
    refine ⟨?_, ?_⟩
    · simp only [perform, run, raise, hsame]
    · simp only [answer, run, raise, trace, hsame]
      rfl
  | sendToPort qualified value =>
    have hsame := Simulation.sendToPort_raise hle h.steady hlive
    refine ⟨?_, ?_⟩
    · simp only [perform, sendToPort, raise, hsame]
      rfl
    · simp only [answer, sendToPort, raise, hsame]
      rfl

theorem Resting.calls_raise (h : Resting model config session)
    (hle : config.maxCascadeDepth ≤ limit) {calls : List Call} (hlive : session.NeverHalts calls) :
    (session.raise limit).performAll calls = (session.performAll calls).raise limit ∧
      (session.raise limit).answers calls = session.answers calls ∧
      (session.raise limit).NeverHalts calls := by
  induction calls generalizing session with
  | nil => exact ⟨rfl, rfl, trivial⟩
  | cons call rest ih =>
    obtain ⟨hfirst, hrest⟩ := hlive
    obtain ⟨hperform, hanswer⟩ := h.call_raise hle hfirst
    obtain ⟨hlast, hanswers, hnever⟩ := ih (h.call call).1 hrest
    refine ⟨?_, ?_, ?_⟩
    · change ((session.raise limit).perform call).performAll rest = _
      rw [hperform]
      exact hlast
    · simp only [answers, hanswer, hperform, hanswers]
    · simp only [NeverHalts, hperform]
      exact ⟨hfirst, hnever⟩

/-- The limit is only a cut-off. If none of the calls on a session halts under some limit, then under
every larger limit the model can be loaded too, none of the calls halts, they return the same, and
they leave the same trace and the same model. -/
theorem limit_cuts_off (h : load model config = .ok session) (hle : config.maxCascadeDepth ≤ limit)
    (calls : List Call) (hlive : session.NeverHalts calls) :
    ∃ raised, load model { config with maxCascadeDepth := limit } = .ok raised ∧
      raised.NeverHalts calls ∧ raised.answers calls = session.answers calls ∧
      (raised.performAll calls).trace = (session.performAll calls).trace ∧
      (raised.performAll calls).simulation.model = (session.performAll calls).simulation.model := by
  obtain ⟨hlast, hanswers, hnever⟩ := (Resting.of_load h).calls_raise hle hlive
  refine ⟨session.raise limit, load_raise h, hnever, hanswers, ?_, ?_⟩
  · rw [hlast]
    rfl
  · rw [hlast]
    rfl

/-- One hop is enough for the beacon, and none is not. -/
theorem limit_cuts_off_beacon :
    let loaded (limit : Nat) : Session := {
      model := beacon
      inputs := {}
      config := { maxCascadeDepth := limit }
      simulation := .new beacon { maxCascadeDepth := limit } }
    let calls := [Call.run, .sendToPort "hub.line" (.bool false)]
    load beacon { maxCascadeDepth := 1 } = .ok (loaded 1) ∧ (loaded 1).NeverHalts calls ∧
      (∃ raised, load beacon { maxCascadeDepth := 64 } = .ok raised ∧ raised.NeverHalts calls ∧
        (raised.performAll calls).trace = ((loaded 1).performAll calls).trace) ∧
      ¬(loaded 0).NeverHalts calls := by
  intro loaded calls
  have hloaded : load beacon { maxCascadeDepth := 1 } = .ok (loaded 1) := rfl
  have hlive : (loaded 1).NeverHalts calls := by
    refine ⟨?_, ?_, trivial⟩
    · decide +kernel
    · decide +kernel
  obtain ⟨raised, hraised, hnever, _, htrace, _⟩ :=
    limit_cuts_off hloaded (show 1 ≤ 64 by decide) calls hlive
  refine ⟨hloaded, hlive, ⟨raised, hraised, hnever, htrace⟩, fun hcut => ?_⟩
  have hhalted : ((loaded 0).perform .run).simulation.halted = true := by decide +kernel
  exact absurd (hhalted.symm.trans hcut.1) (by decide)

end Session
end Archflow
