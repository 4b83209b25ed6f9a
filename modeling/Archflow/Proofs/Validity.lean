import Archflow.Model.Validity
import Archflow.Proofs.Outline

/-!
Valid models. A model that passes its checks has its components stored under their own names, their
subcomponents declared, and delegations that lead from a component to ports of its subcomponents
(`wellFormed_of_validate`). Whether it passes depends on its outline only (`validate_congr`).
-/
namespace Archflow

theorem forall_of_forM_ok {α : Type} {check : α → Except Fault Unit} {items : List α}
    (h : items.forM check = .ok ()) : ∀ item ∈ items, check item = .ok () := by
  induction items with
  | nil => simp
  | cons item rest ih =>
    obtain ⟨_, hitem, hrest⟩ :=
      exists_of_bind_ok (show (check item >>= fun _ => rest.forM check) = .ok () from h)
    exact List.forall_mem_cons.2 ⟨hitem, ih hrest⟩

theorem error_of_bind {α β : Type} {first : Except Fault α} {next : α → Except Fault β} {fault : Fault}
    (h : (first >>= next) = .error fault) :
    first = .error fault ∨ ∃ value, first = .ok value ∧ next value = .error fault := by
  cases first with
  | error other =>
    cases h
    exact .inl rfl
  | ok value => exact .inr ⟨value, rfl, h⟩

/-- Checks of a list fail at the first item that fails its own. -/
theorem exists_of_forM_error {α : Type} {check : α → Except Fault Unit} {items : List α}
    {fault : Fault} (h : items.forM check = .error fault) :
    ∃ item ∈ items, check item = .error fault := by
  induction items with
  | nil => cases h
  | cons item rest ih =>
    rcases error_of_bind (show (check item >>= fun _ => rest.forM check) = .error fault from h) with
      hitem | ⟨_, _, hrest⟩
    · exact ⟨item, List.mem_cons_self, hitem⟩
    · obtain ⟨other, hmem, hother⟩ := ih hrest
      exact ⟨other, List.mem_cons_of_mem _ hmem, hother⟩

namespace Model

theorem of_demand {condition : Bool} {fault : ModelFault} (h : demand condition fault = .ok ()) :
    condition = true := by
  unfold demand at h
  split at h
  · next hcondition => exact hcondition
  · cases h

theorem demand_error {condition : Bool} {reason : ModelFault} {fault : Fault}
    (h : demand condition reason = .error fault) :
    condition = false ∧ fault = .invalidModel reason := by
  unfold demand at h
  split at h
  · cases h
  · next hcondition =>
    cases h
    exact ⟨Bool.eq_false_iff.2 hcondition, rfl⟩

/-- What the checks of a component make sure of, as far as names, ports and nesting go. -/
structure WellFormed (model : Model) (key : String) (component : Component) : Prop where
  named : component.name = key
  owned : ∀ port ∈ component.ports, port.component = key
  nested : ∀ child ∈ component.subcomponents, model.components.contains child = true
  delegated : ∀ delegation ∈ component.delegations,
    delegation.inner.component ∈ component.subcomponents ∧
      ∃ port, model.resolve delegation.inner = .ok port

theorem wellFormed_of_checkComponent {model : Model} {key : String} {component : Component}
    (h : model.checkComponent key component = .ok ()) : model.WellFormed key component := by
  obtain ⟨_, hname, h⟩ := exists_of_bind_ok h
  obtain ⟨_, hports, h⟩ := exists_of_bind_ok h
  obtain ⟨_, hchildren, h⟩ := exists_of_bind_ok h
  obtain ⟨_, hdelegations, -⟩ := exists_of_bind_ok h
  refine ⟨eq_of_beq (of_demand hname), fun port hmem => ?_, fun child hmem => ?_, ?_⟩
  · exact eq_of_beq (of_demand (forall_of_forM_ok hports port hmem))
  · exact (Bool.and_eq_true_iff.1 (of_demand (forall_of_forM_ok hchildren child hmem))).2
  · intro delegation hmem
    obtain ⟨_, hinner, hresolves⟩ := exists_of_bind_ok (forall_of_forM_ok hdelegations _ hmem)
    refine ⟨List.contains_iff_mem.1 (of_demand hinner), ?_⟩
    cases hport : model.resolve delegation.inner with
    | ok port => exact ⟨port, rfl⟩
    | error fault =>
      rw [hport] at hresolves
      cases hresolves

theorem wellFormed_of_validate {model : Model} (h : model.validate = .ok ()) {key : String}
    {component : Component} (hfound : model.components.get? key = some component) :
    model.WellFormed key component := by
  obtain ⟨_, hcomponents, -⟩ := exists_of_bind_ok h
  have hmem : (key, component) ∈ model.components.toList := Entries.mem_of_lookup hfound
  exact wellFormed_of_checkComponent (forall_of_forM_ok hcomponents _ hmem)

theorem checkContainment_of_validate {model : Model} (h : model.validate = .ok ()) :
    model.checkContainment = .ok () := by
  obtain ⟨_, -, h⟩ := exists_of_bind_ok h
  obtain ⟨_, hcontainment, -⟩ := exists_of_bind_ok h
  exact hcontainment

theorem ref_of_resolve {model : Model} (h : model.validate = .ok ()) {ref : PortRef} {port : Port}
    (hport : model.resolve ref = .ok port) : port.ref = ref := by
  unfold resolve at hport
  cases hfound : model.components.get? ref.component with
  | none => simp [hfound] at hport
  | some component =>
    simp only [hfound] at hport
    cases hnamed : component.port? ref.port with
    | none => simp [hnamed] at hport
    | some found =>
      rw [hnamed] at hport
      cases hport
      have howner := (wellFormed_of_validate h hfound).owned port (List.mem_of_find?_eq_some hnamed)
      have hname : port.name = ref.port := by simpa using List.find?_some hnamed
      rw [Port.ref, howner, hname]

def Named (model : Model) : Prop :=
  ∀ key component, model.components.get? key = some component → component.name = key

theorem named_of_validate {model : Model} (h : model.validate = .ok ()) : model.Named :=
  fun _ _ hfound => (wellFormed_of_validate h hfound).named

theorem Named.congr {model other : Model} (h : model.Named) (houtline : other.outline = model.outline) :
    other.Named := by
  intro key component hfound
  have hget : (other.outline.components.get? key).map Component.name =
      (model.outline.components.get? key).map Component.name := by rw [houtline]
  simp only [outline, Table.get?_map, hfound, Option.map_some, Option.map_map] at hget
  obtain ⟨found, hmodel, hname⟩ := Option.map_eq_some_iff.1 hget.symm
  exact hname.symm.trans (h key found hmodel)

/-! Validity and the outline. -/

theorem contains_outline (model : Model) (name : String) :
    model.outline.components.contains name = model.components.contains name := by
  simp [Table.contains, outline]

theorem children_outline (model : Model) (component : String) :
    model.outline.children component = model.children component := by
  simp only [children, outline, Table.get?_map]
  cases model.components.get? component <;> rfl

theorem searchContainment_outline (model : Model) (fuel : Nat) (path finished : List String)
    (component : String) :
    model.outline.searchContainment fuel path finished component =
      model.searchContainment fuel path finished component := by
  induction fuel generalizing path finished component with
  | zero => rfl
  | succ fuel ih => simp only [searchContainment, children_outline, ih]

theorem checkContainment_outline (model : Model) :
    model.outline.checkContainment = model.checkContainment := by
  have hkeys : model.outline.components.keys = model.components.keys := Table.keys_map ..
  simp only [checkContainment, searchContainment_outline, size_outline, hkeys]

theorem checkDelegation_outline (model : Model) (key : String) (component : Component)
    (delegation : PortDelegation) :
    model.outline.checkDelegation key component.outline delegation =
      model.checkDelegation key component delegation := by
  simp only [checkDelegation, resolve_outline]
  cases model.resolve delegation.inner <;> rfl

theorem checkComponent_outline (model : Model) (key : String) (component : Component) :
    model.outline.checkComponent key component.outline = model.checkComponent key component := by
  have hports : component.outline.ports = component.ports.map Port.outline := rfl
  have hdelegations := funext (model.checkDelegation_outline key component)
  simp only [checkComponent, contains_outline, hports, hdelegations, List.forM_eq_forM, List.forM_map]
  rfl

theorem checkFlow_outline (model : Model) (flow : Flow) :
    model.outline.checkFlow flow = model.checkFlow flow := by
  simp only [checkFlow, resolve_outline]
  cases model.resolve flow.source with
  | error fault => rfl
  | ok source => cases model.resolve flow.target <;> rfl

theorem validate_outline (model : Model) : model.outline.validate = model.validate := by
  have hcomponents : model.outline.components.toList =
      model.components.toList.map fun entry => (entry.1, entry.2.outline) := rfl
  have hconnector (connector : Connector) :
      model.outline.checkConnector connector = model.checkConnector connector := by
    simp only [checkConnector, funext model.checkFlow_outline]
    rfl
  have hprotocol (protocol : Protocol) :
      model.outline.checkProtocol protocol = model.checkProtocol protocol := by
    simp only [checkProtocol, contains_outline]
  simp only [validate, hcomponents, List.forM_eq_forM, List.forM_map, checkComponent_outline,
    checkContainment_outline, funext model.checkFlow_outline, funext hconnector, funext hprotocol]
  rfl

theorem validate_congr {model other : Model} (h : other.outline = model.outline) :
    other.validate = model.validate := by
  rw [← validate_outline other, h, validate_outline]

end Model
end Archflow
