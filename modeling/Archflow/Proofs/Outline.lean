import Archflow.Simulation.Send

/-!
The outline of a model: the model without its port values and component states. Whatever a
simulation writes leaves the outline as it is, and the checks that a port makes before it sends or
receives depend on the outline only. So a check that was made once still holds after any writes.
-/
namespace Archflow

theorem exists_of_bind_ok {α β : Type} {first : Except Fault α} {next : α → Except Fault β}
    {result : β} (h : (first >>= next) = .ok result) :
    ∃ value, first = .ok value ∧ next value = .ok result := by
  cases first with
  | error fault => cases h
  | ok value => exact ⟨value, rfl, h⟩

theorem map_updateFirst {α β : Type} {test : α → Bool} {change : α → α} {f : α → β}
    (h : ∀ item, f (change item) = f item) (items : List α) :
    (updateFirst test change items).map f = items.map f := by
  induction items with
  | nil => rfl
  | cons item rest ih =>
    simp only [updateFirst]
    split
    · simp [h]
    · simp [ih]

def Port.outline (port : Port) : Port := { port with value := none }

def Component.outline (component : Component) : Component :=
  { component with ports := component.ports.map Port.outline, state := ∅ }

namespace Component

@[simp] theorem outline_setPort (component : Component) (name : String) (value : Value) :
    (component.setPort name value).outline = component.outline := by
  have hports : (component.setPort name value).ports.map Port.outline =
      component.ports.map Port.outline := by
    apply map_updateFirst
    intro port
    rfl
  unfold outline
  rw [hports]
  rfl

@[simp] theorem outline_setState (component : Component) (key : String) (value : Value) :
    (component.setState key value).outline = component.outline := rfl

theorem port?_outline (component : Component) (name : String) :
    component.outline.port? name = (component.port? name).map Port.outline := by
  simp only [outline, port?, List.find?_map]
  rfl

theorem outerFor?_outline (composite : Component) (inner : PortRef) :
    composite.outline.outerFor? inner = composite.outerFor? inner := by
  unfold outerFor?
  simp only [port?_outline]
  congr 2
  funext delegation
  cases composite.port? delegation.outer <;> rfl

end Component

namespace Model

def outline (model : Model) : Model :=
  { model with components := model.components.map fun _ => Component.outline }

theorem outline_updateComponent (model : Model) (name : String) {change : Component → Component}
    (h : ∀ component, (change component).outline = component.outline) :
    (model.updateComponent name change).outline = model.outline := by
  have hcomponents : (model.components.modify name change).map (fun _ => Component.outline) =
      model.components.map fun _ => Component.outline := by
    apply Table.ext_get?
    intro key
    simp only [Table.get?_map, Table.get?_modify]
    split
    · simp [Function.comp_def, h]
    · rfl
  simp only [outline, updateComponent, hcomponents]

@[simp] theorem outline_setPort (model : Model) (ref : PortRef) (value : Value) :
    (model.setPort ref value).outline = model.outline :=
  outline_updateComponent _ _ fun component => component.outline_setPort ..

@[simp] theorem outline_setState (model : Model) (component key : String) (value : Value) :
    (model.setState component key value).outline = model.outline :=
  outline_updateComponent _ _ fun component => component.outline_setState ..

theorem size_outline (model : Model) : model.outline.components.size = model.components.size :=
  List.length_map ..

/-- A reference leads to the same port of the outline, or fails for the same reason. -/
theorem resolve_outline (model : Model) (ref : PortRef) :
    model.outline.resolve ref = (model.resolve ref).map Port.outline := by
  simp only [resolve, outline, Table.get?_map]
  cases model.components.get? ref.component with
  | none => rfl
  | some component =>
    simp only [Option.map_some, Component.port?_outline]
    cases component.port? ref.port with
    | none => simp [Component.outline, Except.map, Function.comp_def, Port.outline]
    | some port => rfl

theorem checkReceive_outline (model : Model) (ref : PortRef) (value : Value) :
    model.outline.checkReceive ref value = model.checkReceive ref value := by
  simp only [checkReceive, resolve_outline]
  cases model.resolve ref <;> rfl

theorem checkSend_outline (model : Model) (ref : PortRef) (value : Value) :
    model.outline.checkSend ref value = model.checkSend ref value := by
  simp only [checkSend, resolve_outline]
  cases model.resolve ref <;> rfl

theorem delegates_outline (model : Model) (ref : PortRef) :
    model.outline.delegates ref = model.delegates ref := by
  simp only [delegates, outline, Table.get?_map]
  cases model.components.get? ref.component <;> rfl

theorem delegatingOuter?_outline (model : Model) (inner : PortRef) :
    model.outline.delegatingOuter? inner = model.delegatingOuter? inner := by
  have hitems : model.outline.components.items = model.components.items.map Component.outline := by
    simp only [outline, Table.items, Table.map, List.map_map]
    rfl
  simp only [delegatingOuter?, hitems, List.findSome?_map, Function.comp_def,
    Component.outerFor?_outline]

section
variable {model other : Model} (h : model.outline = other.outline)
include h

theorem checkReceive_congr (ref : PortRef) (value : Value) :
    model.checkReceive ref value = other.checkReceive ref value := by
  rw [← checkReceive_outline model, h, checkReceive_outline]

theorem checkSend_congr (ref : PortRef) (value : Value) :
    model.checkSend ref value = other.checkSend ref value := by
  rw [← checkSend_outline model, h, checkSend_outline]

theorem delegates_congr (ref : PortRef) : model.delegates ref = other.delegates ref := by
  rw [← delegates_outline model, h, delegates_outline]

theorem delegatingOuter?_congr (inner : PortRef) :
    model.delegatingOuter? inner = other.delegatingOuter? inner := by
  rw [← delegatingOuter?_outline model, h, delegatingOuter?_outline]

theorem receiveLoop_congr (limit : Nat) (value : Value) (targets : List PortRef)
    (pending : List (PortRef × Nat)) :
    model.receiveLoop limit value targets pending = other.receiveLoop limit value targets pending := by
  fun_induction receiveLoop model limit value targets pending with
  | case1 targets => rw [receiveLoop]
  | case2 targets ref hops rest hdeep =>
    rw [receiveLoop, dif_pos hdeep]
  | case3 targets ref hops rest hdeep fault hcheck =>
    rw [checkReceive_congr h] at hcheck
    rw [receiveLoop, dif_neg hdeep, hcheck]
  | case4 targets ref hops rest hdeep hcheck _ ih =>
    rw [checkReceive_congr h] at hcheck
    rw [ih, delegates_congr h]
    conv => rhs; rw [receiveLoop, dif_neg hdeep, hcheck]

theorem receiveTargets_congr (limit : Nat) (ref : PortRef) (value : Value) :
    model.receiveTargets limit ref value = other.receiveTargets limit ref value :=
  receiveLoop_congr h ..

theorem chainFrom_congr (limit : Nat) (value : Value) (budget : Nat) (ref : PortRef) :
    model.chainFrom limit value budget ref = other.chainFrom limit value budget ref := by
  induction budget generalizing ref with
  | zero => rfl
  | succ budget ih => simp only [chainFrom, checkSend_congr h, delegatingOuter?_congr h, ih]

theorem sendChain_congr (limit : Nat) (ref : PortRef) (value : Value) :
    model.sendChain limit ref value = other.sendChain limit ref value :=
  chainFrom_congr h ..

theorem size_congr : model.components.size = other.components.size := by
  rw [← size_outline model, h, size_outline]

end

end Model
end Archflow
