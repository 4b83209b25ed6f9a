import Archflow.Proofs.Continuation
import Archflow.Proofs.Delivery
import Archflow.Proofs.Limit

/-!
Inputs that are rejected. An input that no port takes leaves nothing behind but the entry that tells
of it, and what is on record does not matter to the rest of the run. So a run does the same with the
input as without it (`rejected_input_ignored`).
-/
namespace Archflow

namespace Trace

/-- One entry more at the end of the earlier trace moves all later entries by one. -/
theorem entries_push_onto (earlier later : Trace) (element : String) (kind : StepKind)
    (input output : Option Value) (fault : Option Fault) :
    ((earlier.push element kind input output fault).onto later).entries.toList =
      (earlier.onto later).entries.toList.take earlier.size ++
        ⟨earlier.size, element, kind, input, output, fault⟩ ::
          ((earlier.onto later).entries.toList.drop earlier.size).map (Entry.shift 1) := by
  have hsize : (earlier.push element kind input output fault).size = earlier.size + 1 := by
    simp [push, size]
  have hshift : Entry.shift (earlier.size + 1) = Entry.shift 1 ∘ Entry.shift earlier.size := by
    funext entry
    simp only [Entry.shift, Function.comp_apply, Entry.mk.injEq, and_true]
    omega
  have hlength : earlier.entries.toList.length = earlier.size := rfl
  rw [entries_onto, entries_onto, entries_push, hsize, hshift, ← hlength, List.take_left, List.drop_left,
    List.map_map, List.append_assoc]
  rfl

end Trace

namespace Simulation

/-- What a run does after some of its inputs have been seeded: it seeds the others and goes through
its phases. -/
def remainder (ports : List (String × Value)) (executables : Table (List Value)) (sim : Simulation) :
    Simulation :=
  (((Session.seedInputs sim ports).unlessHalted propagateFlows).unlessHalted
    runProtocols).unlessHalted (·.runOrphans executables)

theorem simulate_append (model : Model) (config : Config) (before later : List (String × Value))
    (executables : Table (List Value)) :
    Session.simulate model config ⟨before ++ later, executables⟩ =
      (seeded model config before).remainder later executables := by
  simp only [simulate_eq, propagated, seeded, remainder, Session.seedInputs, List.foldl_append]

theorem remainder_cons {sim : Simulation} (hlive : sim.halted = false) (qualified : String)
    (value : Value) (later : List (String × Value)) (executables : Table (List Value)) :
    sim.remainder ((qualified, value) :: later) executables =
      (sim.seedInput qualified value).remainder later executables := by
  have hseeded : sim.unlessHalted (·.seedInput qualified value) = sim.seedInput qualified value :=
    if_neg (by simp [hlive])
  simp only [remainder, Session.seedInputs, List.foldl_cons, hseeded]

theorem remainder_onto {earlier : Trace} {sim : Simulation} (ports : List (String × Value))
    (executables : Table (List Value)) :
    (sim.onto earlier).remainder ports executables =
      (sim.remainder ports executables).onto earlier := by
  unfold remainder
  rw [seedInputs_onto, unlessHalted_onto propagateFlows_onto, unlessHalted_onto runProtocols_onto]
  exact unlessHalted_onto (runOrphans_onto executables)

theorem inject_error {sim : Simulation} {port : PortRef} {value : Value} {fault : Fault}
    (h : (sim.inject port value).1 = .error fault) :
    sim.inject port value = (.error fault, sim) := by
  unfold inject at h ⊢
  cases hresolve : sim.model.resolve port with
  | error other =>
    simp only [hresolve] at h
    cases h
    rfl
  | ok resolved =>
    simp only [hresolve] at h
    dsimp only
    cases hopen : resolved.direction.canReceive with
    | true =>
      simp only [hopen, if_true] at h ⊢
      exact Prod.ext h (receive_error (Prod.ext h rfl)).1
    | false =>
      simp only [hopen, Bool.false_eq_true, if_false] at h ⊢
      cases hcheck : resolved.checkPayload sim.model.symbols value with
      | error other =>
        simp only [hcheck] at h
        cases h
        rfl
      | ok =>
        simp only [hcheck] at h
        cases h

/-- An input that is rejected changes nothing. -/
theorem injectNamed_error {sim : Simulation} {qualified : String} {value : Value} {fault : Fault}
    (h : (sim.injectNamed qualified value).1 = .error fault) :
    sim.injectNamed qualified value = (.error fault, sim) := by
  unfold injectNamed at h ⊢
  cases hparse : PortRef.parse qualified with
  | error other =>
    rw [hparse] at h
    cases h
    rfl
  | ok port =>
    rw [hparse] at h
    exact inject_error h

/-- It is put on record, and as nothing waits there is nothing to react to. -/
theorem seedInput_rejected {sim : Simulation} {qualified : String} {value : Value} {fault : Fault}
    (hquiet : sim.wakeups = []) (hmild : fault.isFatal = false)
    (h : (sim.injectNamed qualified value).1 = .error fault) :
    sim.seedInput qualified value =
      { sim with trace := sim.trace.recordFault qualified .log (some value) fault } := by
  have hfail : sim.fail qualified .log (some value) fault =
      { sim with trace := sim.trace.recordFault qualified .log (some value) fault } :=
    if_neg (by simp [hmild])
  unfold seedInput
  rw [injectNamed_error h]
  change (sim.fail qualified .log (some value) fault).drain = _
  rw [hfail]
  exact drainLoop_settled hquiet

theorem wakeups_seeded (model : Model) (config : Config) (ports : List (String × Value)) :
    (seeded model config ports).wakeups = [] :=
  (seeded_driven model config ports).wakeups_eq_nil (.new model config) rfl

end Simulation

namespace Session

open Simulation (seeded)

/-- A rejected input does not disturb the rest of the run. If an input is seeded and refused with a
fault that is not fatal, then the run without it ends in the same simulation but for the trace, and so
with the same model; and its trace lacks the entry of the refusal, after which all numbers are one
less. -/
theorem rejected_input_ignored (session : Session) {before later : List (String × Value)}
    {qualified : String} {value : Value} {executables : Table (List Value)} {fault : Fault}
    (hlive : (seeded session.model session.config before).halted = false)
    (hrejected : ((seeded session.model session.config before).injectNamed qualified value).1 =
      .error fault)
    (hmild : fault.isFatal = false) :
    let count := (seeded session.model session.config before).trace.size
    let full := { session with inputs := ⟨before ++ (qualified, value) :: later, executables⟩ }.run
    let rest := { session with inputs := ⟨before ++ later, executables⟩ }.run
    full.simulation.model = rest.simulation.model ∧
      full.simulation = { rest.simulation with trace := full.trace } ∧
      count ≤ rest.trace.size ∧
      full.trace.entries.toList = rest.trace.entries.toList.take count ++
        ⟨count, qualified, .log, some value, none, some fault⟩ ::
          (rest.trace.entries.toList.drop count).map (Trace.Entry.shift 1) := by
  intro count full rest
  let reached := seeded session.model session.config before
  let told := reached.trace.recordFault qualified .log (some value) fault
  -- Both runs go on from the same state, with one entry more on record in one of them.
  let fresh : Simulation := { reached with trace := {} }
  let ended := fresh.remainder later executables
  have hrest : rest.simulation = ended.onto reached.trace := by
    change Session.simulate session.model session.config ⟨before ++ later, executables⟩ = _
    rw [Simulation.simulate_append, ← Simulation.remainder_onto, Simulation.onto_blank]
  have hfull : full.simulation = ended.onto told := by
    have hquiet := Simulation.wakeups_seeded session.model session.config before
    change Session.simulate session.model session.config
      ⟨before ++ (qualified, value) :: later, executables⟩ = _
    rw [Simulation.simulate_append, Simulation.remainder_cons hlive, ← Simulation.remainder_onto,
      Simulation.onto_blank, Simulation.seedInput_rejected hquiet hmild hrejected]
  have hentries := Trace.entries_push_onto reached.trace ended.trace qualified .log (some value) none
    (some fault)
  unfold trace
  rw [hfull, hrest]
  refine ⟨rfl, rfl, ?_, hentries⟩
  simp [Simulation.onto, Trace.onto, Trace.size, count, reached]

theorem rejected_input_ignored_relay :
    let session : Session := { model := relay, inputs := {}, config := {}, simulation := .new relay {} }
    let fault : Fault := .typeMismatch (.nonconforming (.port ⟨"sink", "in"⟩) .boolean (.int 7))
    let full := { session with inputs := ⟨[("sink.in", .int 7), ("sink.in", .bool false)], ∅⟩ }.run
    let rest := { session with inputs := ⟨[("sink.in", .bool false)], ∅⟩ }.run
    load relay {} = .ok session ∧
      full.simulation.model = rest.simulation.model ∧
      full.trace.entries.toList =
        ⟨0, "sink.in", .log, some (.int 7), none, some fault⟩ ::
          rest.trace.entries.toList.map (Trace.Entry.shift 1) := by
  intro session fault full rest
  have hlive : (seeded relay {} []).halted = false := by decide +kernel
  have hrejected : ((seeded relay {} []).injectNamed "sink.in" (.int 7)).1 = .error fault := by
    decide +kernel
  obtain ⟨hmodel, -, -, htrace⟩ := @rejected_input_ignored session [] [("sink.in", .bool false)] _ _ ∅ _
    hlive hrejected rfl
  exact ⟨rfl, hmodel, htrace⟩

end Session
end Archflow
