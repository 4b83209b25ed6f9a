import Archflow.Proofs.Driven
import Archflow.Proofs.Validity

/-!
What stays as it is. Operations change port values and component states and nothing else of a model,
so a valid model stays valid; and they add to the end of the trace and nowhere else, each entry with
its place as its number. Both hold of every event, hence at every moment of every operation.
-/
namespace Archflow

namespace Trace

def Numbered (trace : Trace) : Prop :=
  ∀ (place : Nat) (entry : Entry), trace.entries[place]? = some entry → entry.seq = place

/-- The entries of a trace are the first ones of a later trace, and the later ones are numbered on
from there. -/
structure Continues (trace later : Trace) : Prop where
  kept : trace.entries.toList <+: later.entries.toList
  numbered : trace.Numbered → later.Numbered

namespace Continues

variable {trace mid later : Trace}

theorem refl (trace : Trace) : trace.Continues trace := ⟨List.prefix_refl _, id⟩

theorem trans (first : trace.Continues mid) (second : mid.Continues later) : trace.Continues later :=
  ⟨first.kept.trans second.kept, fun h => second.numbered (first.numbered h)⟩

theorem push (trace : Trace) (element : String) (kind : StepKind) (input output : Option Value)
    (fault : Option Fault) : trace.Continues (trace.push element kind input output fault) := by
  refine ⟨?_, fun h place entry hentry => ?_⟩
  · rw [entries_push]
    exact List.prefix_append ..
  · rw [Trace.push, Array.getElem?_push] at hentry
    split at hentry
    · next hlast =>
      cases hentry
      exact hlast.symm
    · exact h place entry hentry

end Continues
end Trace

namespace Simulation

theorem trace_continues_fail (sim : Simulation) (element : String) (kind : StepKind)
    (input : Option Value) (fault : Fault) :
    sim.trace.Continues (sim.fail element kind input fault).trace := by
  unfold fail
  split
  · exact .push ..
  · exact .push ..

/-- An event puts at most one entry on record, at the end of the trace. -/
theorem trace_continues_effect (event : Event) (sim : Simulation) :
    sim.trace.Continues (event.effect sim).trace := by
  cases event with
  | transmit index value =>
    unfold Event.effect
    dsimp only
    split <;> exact .refl _
  | land port value =>
    unfold Event.effect land
    dsimp only
    split <;> exact .push ..
  | record element kind input output => exact .push ..
  | fail element kind input fault => exact sim.trace_continues_fail element kind input fault
  | halt fault => exact .push ..
  | _ => exact .refl _

/-- A history only adds to the trace, from each of its moments to the next. -/
theorem Leads.trace_continues {admits : Simulation → Event → Prop} {sim last : Simulation}
    {history : List Moment} (leads : Leads admits sim history last) :
    sim.trace.Continues last.trace ∧ ∀ moment ∈ history,
      sim.trace.Continues moment.sim.trace ∧ moment.sim.trace.Continues last.trace := by
  induction leads with
  | nil => exact ⟨.refl _, by simp⟩
  | @cons sim last event history _ _ ih =>
    have hfirst := trace_continues_effect event sim
    obtain ⟨hlast, hmoments⟩ := ih
    refine ⟨hfirst.trans hlast, List.forall_mem_cons.2 ⟨⟨.refl _, hfirst.trans hlast⟩, ?_⟩⟩
    intro moment hmem
    obtain ⟨hearlier, hlater⟩ := hmoments moment hmem
    exact ⟨hfirst.trans hearlier, hlater⟩

theorem numbered_after (model : Model) (config : Config) (operations : List Operation) :
    (after model config operations).trace.Numbered := by
  have hnew : (Simulation.new model config).trace.Numbered := by
    intro place entry hentry
    cases hentry
  unfold after
  refine List.foldlRecOn (motive := fun sim : Simulation => sim.trace.Numbered) operations _ hnew ?_
  intro sim h operation _
  have hstart : (operation.start model config sim).trace.Numbered :=
    operation.start_of (fun sim => sim.trace.Numbered) hnew h
  exact (operation.leads model config sim).trace_continues.1.numbered hstart

/-! Executables that nothing in the model uses. -/

theorem model_fail (sim : Simulation) (element : String) (kind : StepKind) (input : Option Value)
    (fault : Fault) : (sim.fail element kind input fault).model = sim.model := by
  unfold fail
  split <;> rfl

theorem model_runOrphan (sim : Simulation) (supplied : Table (List Value)) (name : String) :
    (sim.runOrphan supplied name).model = sim.model := by
  unfold runOrphan
  cases sim.model.executables.get? name with
  | none => rfl
  | some exe =>
    dsimp only
    split
    · rfl
    · exact sim.model_fail ..

theorem model_runOrphans (sim : Simulation) (supplied : Table (List Value)) :
    (sim.runOrphans supplied).model = sim.model := by
  unfold runOrphans
  refine List.foldlRecOn (motive := fun last : Simulation => last.model = sim.model) _ _ rfl ?_
  intro last h name _
  unfold unlessHalted
  split
  · exact h
  · exact (last.model_runOrphan supplied name).trans h

/-- What is the same at a moment of an operation as at its start, and what has been added to the
trace meanwhile. -/
structure Keeps (start moment : Simulation) : Prop where
  outline : moment.model.outline = start.model.outline
  trace : start.trace.Continues moment.trace

/-- Only values and states change. After any operations on any model, valid or not, the model is the
one they were started on but for port values and component states, and it is as valid as that; the
entries of the trace are numbered by their places. A further operation keeps the outline of the model
and all entries of the trace it starts from at each of its moments, and no entry is lost or moved
between a moment and its end; only a run starts over, with an empty trace. No executable that nothing
uses changes a port or a state. -/
theorem only_values_change (model : Model) (config : Config) (operations : List Operation) :
    let sim := after model config operations
    sim.model.outline = model.outline ∧
      sim.model.validate = model.validate ∧
      sim.trace.Numbered ∧
      (∀ operation : Operation,
        let start := operation.start model config sim
        let history := operation.history model config sim
        let last := operation.apply model config sim
        Leads Event.Checked start history last ∧ Keeps start last ∧
          ∀ moment ∈ history, Keeps start moment.sim ∧ Keeps moment.sim last) ∧
      ∀ (reached : Simulation) (supplied : Table (List Value)),
        (reached.runOrphans supplied).model = reached.model := by
  have houtline := (alike_after model config operations).outline
  refine ⟨houtline, Model.validate_congr houtline, numbered_after model config operations,
    fun operation => ?_, model_runOrphans⟩
  have hleads := operation.leads model config (after model config operations)
  obtain ⟨hlast, hmoments⟩ := hleads.alike
  obtain ⟨htrace, htraces⟩ := hleads.trace_continues
  refine ⟨hleads, ⟨hlast.outline, htrace⟩, fun moment hmem => ?_⟩
  have hmoment := (hmoments moment hmem).outline
  obtain ⟨hearlier, hlater⟩ := htraces moment hmem
  exact ⟨⟨hmoment, hearlier⟩, ⟨hlast.outline.trans hmoment.symm, hlater⟩⟩

end Simulation
end Archflow
