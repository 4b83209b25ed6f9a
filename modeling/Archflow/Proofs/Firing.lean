import Archflow.Simulation.React

/-!
What makes an activity fire. A value on a port sets an activity off if the activity is interested in
the port and ready; the firing is then that of the executable behind its first action. Of several
ports the first one decides.
-/
namespace Archflow

namespace Model

variable {model : Model} {realization : Realization} {component : Component} {name port : String}

/-- All that can come of an activity when a value is on a port. -/
theorem fire?_cases :
    (∃ activity, model.activities.get? name = some activity ∧
      model.fire? realization component name port = .ok none ∧
      (activity.isInterested component port = false ∨ activity.isReady component = false)) ∨
    (∃ activity action executable, model.activities.get? name = some activity ∧
      model.fire? realization component name port = .ok (some {
        component := component.name
        activity := activity.name
        executable
        constraint := action.constraint
        args := activity.bindInputs component model.symbols
        outputKey := activity.outputs.head?.map Param.name
        outputPort := activity.outputPort? component }) ∧
      activity.isInterested component port = true ∧ activity.isReady component = true ∧
      activity.actions.head? = some action ∧
      realization.executableFor? action.name = some executable) ∨
    ∃ fault, model.fire? realization component name port = .error fault ∧ fault.isFatal = false := by
  unfold fire?
  cases hactivity : model.activities.get? name with
  | none => exact .inr (.inr ⟨_, rfl, rfl⟩)
  | some activity =>
    dsimp only
    cases hinterested : activity.isInterested component port with
    | false => exact .inl ⟨activity, rfl, rfl, .inl hinterested⟩
    | true =>
      cases hready : activity.isReady component with
      | false => exact .inl ⟨activity, rfl, rfl, .inr hready⟩
      | true =>
        simp only [Bool.not_true, Bool.or_self, Bool.false_eq_true, if_false]
        cases haction : activity.actions.head? with
        | none => exact .inr (.inr ⟨_, rfl, rfl⟩)
        | some action =>
          dsimp only
          cases hexecutable : realization.executableFor? action.name with
          | none => exact .inr (.inr ⟨_, rfl, rfl⟩)
          | some executable =>
            exact .inr (.inl ⟨activity, action, executable, rfl, rfl, hinterested, hready, haction,
              hexecutable⟩)

/-- A firing comes from an activity that is interested and ready, and from the executable behind its
first action. -/
theorem fire?_some {firing : Firing}
    (h : model.fire? realization component name port = .ok (some firing)) :
    ∃ activity action executable, model.activities.get? name = some activity ∧
      activity.isInterested component port = true ∧ activity.isReady component = true ∧
      activity.actions.head? = some action ∧
      realization.executableFor? action.name = some executable ∧
      firing = {
        component := component.name
        activity := activity.name
        executable
        constraint := action.constraint
        args := activity.bindInputs component model.symbols
        outputKey := activity.outputs.head?.map Param.name
        outputPort := activity.outputPort? component } := by
  rcases @fire?_cases model realization component name port with ⟨_, _, hfire, _⟩ |
    ⟨activity, action, executable, hactivity, hfire, hinterested, hready, haction, hexecutable⟩ |
    ⟨_, hfire, _⟩
  · cases hfire.symm.trans h
  · cases hfire.symm.trans h
    exact ⟨activity, action, executable, hactivity, hinterested, hready, haction, hexecutable, rfl⟩
  · cases hfire.symm.trans h

end Model

namespace Simulation

variable {sim : Simulation} {component : Component} {name : String} {ports : List String}

theorem firstFiring?_none (h : sim.firstFiring? component name ports = .ok none) (hports : ports ≠ []) :
    ∃ activity, sim.model.activities.get? name = some activity ∧
      ((∀ port ∈ ports, activity.isInterested component port = false) ∨
        activity.isReady component = false) := by
  induction ports with
  | nil => exact absurd rfl hports
  | cons port rest ih =>
    rw [firstFiring?] at h
    rcases @Model.fire?_cases sim.model sim.realization component name port with
      ⟨activity, hactivity, hfire, hreason⟩ | ⟨_, _, _, _, hfire, _⟩ | ⟨_, hfire, _⟩
    · refine ⟨activity, hactivity, ?_⟩
      rcases hreason with huninterested | hunready
      · simp only [hfire] at h
        cases rest with
        | nil => exact .inl (by simpa using huninterested)
        | cons next more =>
          obtain ⟨same, hsame, hrest⟩ := ih h (by simp)
          obtain rfl : same = activity := Option.some.inj (hsame.symm.trans hactivity)
          refine hrest.imp_left fun hall => ?_
          exact List.forall_mem_cons.2 ⟨huninterested, hall⟩
      · exact .inr hunready
    · simp only [hfire] at h
      cases h
    · simp only [hfire] at h
      cases h

theorem firstFiring?_some {firing : Firing}
    (h : sim.firstFiring? component name ports = .ok (some firing)) :
    ∃ port ∈ ports, sim.model.fire? sim.realization component name port = .ok (some firing) := by
  induction ports with
  | nil => cases h
  | cons port rest ih =>
    rw [firstFiring?] at h
    rcases @Model.fire?_cases sim.model sim.realization component name port with
      ⟨_, _, hfire, _⟩ | ⟨_, _, _, _, hfire, _⟩ | ⟨_, hfire, _⟩
    · simp only [hfire] at h
      obtain ⟨found, hfound, hfired⟩ := ih h
      exact ⟨found, List.mem_cons_of_mem _ hfound, hfired⟩
    · simp only [hfire] at h
      cases h
      exact ⟨port, List.mem_cons_self, hfire⟩
    · simp only [hfire] at h
      cases h

theorem firstFiring?_error {fault : Fault}
    (h : sim.firstFiring? component name ports = .error fault) : fault.isFatal = false := by
  induction ports with
  | nil => cases h
  | cons port rest ih =>
    rw [firstFiring?] at h
    rcases @Model.fire?_cases sim.model sim.realization component name port with
      ⟨_, _, hfire, _⟩ | ⟨_, _, _, _, hfire, _⟩ | ⟨other, hfire, hfatal⟩
    · simp only [hfire] at h
      exact ih h
    · simp only [hfire] at h
      cases h
    · simp only [hfire] at h
      cases h
      exact hfatal

end Simulation
end Archflow
