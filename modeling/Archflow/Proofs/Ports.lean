import Archflow.Proofs.Episode

/-!
Ports seen through look-ups. An event gives a value to at most one port (`port?_effect`), and no
event changes anything else about any port (`Alike.port?_outline`).
-/
namespace Archflow

def Port.holding (port : Port) (value : Value) : Port := { port with value := some value }

@[simp] theorem Port.value_holding (port : Port) (value : Value) :
    (port.holding value).value = some value := rfl

namespace Component

theorem port?_setPort (component : Component) (name other : String) (value : Value) :
    (component.setPort name value).port? other =
      if other = name then (component.port? name).map (·.holding value) else component.port? other := by
  unfold setPort port?
  dsimp only
  induction component.ports with
  | nil => split <;> rfl
  | cons port rest ih =>
    rw [updateFirst]
    by_cases hport : port.name = name
    · by_cases hother : other = name
      · simp [hport, hother, Port.holding]
      · simp [hport, hother, Ne.symm hother]
    · simp only [beq_iff_eq, hport, if_false]
      by_cases hfound : port.name = other
      · have hother : other ≠ name := fun h => hport (hfound.trans h)
        simp [hfound, hother]
      · rw [List.find?_cons_of_neg (by simpa using hfound), ih, List.find?_cons_of_neg (by simpa using hport),
          List.find?_cons_of_neg (by simpa using hfound)]

/-- With distinct names, a look-up finds every port. -/
theorem port?_of_mem {component : Component} (hdistinct : (component.ports.map Port.name).Nodup)
    {port : Port} (hmem : port ∈ component.ports) : component.port? port.name = some port := by
  unfold port?
  revert hdistinct hmem
  generalize component.ports = ports
  induction ports with
  | nil => exact fun _ hmem => nomatch hmem
  | cons first rest ih =>
    intro hdistinct hmem
    rw [List.map_cons, List.nodup_cons] at hdistinct
    rcases List.mem_cons.1 hmem with rfl | hrest
    · simp
    · have hne : first.name ≠ port.name := by
        intro heq
        exact hdistinct.1 (heq ▸ List.mem_map_of_mem hrest)
      rw [List.find?_cons_of_neg (by simpa using hne)]
      exact ih hdistinct.2 hrest

end Component

namespace Model

variable (model : Model)

theorem port?_setPort (ref other : PortRef) (value : Value) :
    (model.setPort ref value).port? other =
      if other = ref then (model.port? ref).map (·.holding value) else model.port? other := by
  simp only [port?, setPort, updateComponent, Table.get?_modify]
  by_cases hcomponent : other.component = ref.component
  · simp only [hcomponent, if_true]
    cases hfound : model.components.get? ref.component with
    | none => split <;> rfl
    | some component =>
      simp only [Option.map_some, Option.bind_some, Component.port?_setPort]
      by_cases hport : other.port = ref.port
      · have heq : other = ref := by
          cases other
          cases ref
          simp_all
        simp [heq]
      · have hne : other ≠ ref := fun h => hport (congrArg PortRef.port h)
        simp [hport, hne]
  · have hne : other ≠ ref := fun h => hcomponent (congrArg PortRef.component h)
    simp [hcomponent, hne]

@[simp] theorem port?_setState (component key : String) (value : Value) (ref : PortRef) :
    (model.setState component key value).port? ref = model.port? ref := by
  simp only [port?, setState, updateComponent, Table.get?_modify]
  split
  · cases model.components.get? ref.component <;> rfl
  · rfl

theorem resolve_eq_ok_iff {model : Model} {ref : PortRef} {port : Port} :
    model.resolve ref = .ok port ↔ model.port? ref = some port := by
  unfold resolve port?
  cases model.components.get? ref.component with
  | none => simp
  | some component =>
    dsimp only [Option.bind_some]
    cases component.port? ref.port <;> simp

theorem exists_of_port? {model : Model} {ref : PortRef} {port : Port}
    (h : model.port? ref = some port) :
    ∃ component, model.components.get? ref.component = some component ∧ port ∈ component.ports ∧
      port.name = ref.port := by
  obtain ⟨component, hcomponent, hfound⟩ := Option.bind_eq_some_iff.1 h
  exact ⟨component, hcomponent, List.mem_of_find?_eq_some hfound, by simpa using List.find?_some hfound⟩

theorem port?_outline (ref : PortRef) :
    model.outline.port? ref = (model.port? ref).map Port.outline := by
  simp only [port?, outline, Table.get?_map]
  cases model.components.get? ref.component with
  | none => rfl
  | some component => exact component.port?_outline ref.port

theorem portNames_of_outline {model other : Model} (houtline : other.outline = model.outline)
    {owner : String} {component : Component} (hfound : other.components.get? owner = some component) :
    ∃ found, model.components.get? owner = some found ∧
      found.ports.map Port.name = component.ports.map Port.name := by
  have hget : (other.outline.components.get? owner).map (·.ports.map Port.name) =
      (model.outline.components.get? owner).map (·.ports.map Port.name) := by rw [houtline]
  simp only [outline, Table.get?_map, hfound, Option.map_some, Option.map_map] at hget
  obtain ⟨found, hmodel, hports⟩ := Option.map_eq_some_iff.1 hget.symm
  refine ⟨found, hmodel, ?_⟩
  simpa [Component.outline, Function.comp_def, Port.outline] using hports

/-- A port that accepts a value is there, whatever else it is asked. -/
theorem port?_of_check {model : Model} {ref : PortRef} {value : Value}
    {question : Port → Except Fault Unit}
    (h : (do
      let port ← model.resolve ref
      question port
      port.checkPayload model.symbols value) = .ok ()) :
    ∃ port, model.port? ref = some port ∧ question port = .ok () := by
  obtain ⟨port, hresolve, hchecks⟩ := exists_of_bind_ok h
  obtain ⟨_, hquestion, _⟩ := exists_of_bind_ok hchecks
  exact ⟨port, resolve_eq_ok_iff.1 hresolve, hquestion⟩

theorem port?_of_checkReceive {model : Model} {ref : PortRef} {value : Value}
    (h : model.checkReceive ref value = .ok ()) :
    ∃ port, model.port? ref = some port ∧ port.direction.canReceive = true := by
  obtain ⟨port, hport, hdirection⟩ := @port?_of_check model ref value Port.checkReceive h
  refine ⟨port, hport, ?_⟩
  by_contra hcannot
  simp [Port.checkReceive, hcannot] at hdirection

theorem port?_of_checkSend {model : Model} {ref : PortRef} {value : Value}
    (h : model.checkSend ref value = .ok ()) :
    ∃ port, model.port? ref = some port ∧ port.direction.canSend = true := by
  obtain ⟨port, hport, hdirection⟩ := @port?_of_check model ref value Port.checkSend h
  refine ⟨port, hport, ?_⟩
  by_contra hcannot
  simp [Port.checkSend, hcannot] at hdirection

end Model

namespace Simulation

def Event.filled? : Event → Option (PortRef × Value)
  | .land port value | .write port value | .place port value => some (port, value)
  | _ => none

@[simp] theorem port?_land (sim : Simulation) (value : Value) (port ref : PortRef) :
    (sim.land value port).model.port? ref = (sim.model.setPort port value).port? ref := by
  unfold land
  dsimp only
  split <;> simp [record]

theorem port?_seed (sim : Simulation) (ref : PortRef) :
    sim.seedInitialValues.model.port? ref = sim.model.port? ref := by
  simp only [Model.port?, seedInitialValues, Table.get?_map]
  cases sim.model.components.get? ref.component <;> rfl

/-- An event gives a value to the port that it names, and to no other. -/
theorem port?_effect (event : Event) (sim : Simulation) (ref : PortRef) :
    (event.effect sim).model.port? ref =
      match event.filled? with
      | some (port, value) =>
          if ref = port then (sim.model.port? port).map (·.holding value) else sim.model.port? ref
      | none => sim.model.port? ref := by
  cases event with
  | land port value => exact (port?_land ..).trans (Model.port?_setPort ..)
  | write port value => exact Model.port?_setPort ..
  | place port value => exact (Model.port?_setState ..).trans (Model.port?_setPort ..)
  | store component key value => exact Model.port?_setState ..
  | seed => exact sim.port?_seed ref
  | transmit index value =>
    unfold Event.effect
    dsimp only
    split <;> rfl
  | fail element kind input fault =>
    unfold Event.effect fail
    dsimp only
    split <;> rfl
  | _ => rfl

/-- All about a port but its value is fixed. -/
theorem Alike.port?_outline {sim other : Simulation} (h : Alike sim other) (ref : PortRef) :
    (other.model.port? ref).map Port.outline = (sim.model.port? ref).map Port.outline := by
  rw [← Model.port?_outline, h.outline, Model.port?_outline]

theorem Alike.direction_eq {sim other : Simulation} (h : Alike sim other) (ref : PortRef) :
    (other.model.port? ref).map Port.direction = (sim.model.port? ref).map Port.direction := by
  have houtline := congrArg (Option.map Port.direction) (h.port?_outline ref)
  simpa [Function.comp_def, Port.outline] using houtline

end Simulation
end Archflow
