import Archflow.Model.Declaration
import Archflow.Proofs.Containment
import Archflow.Proofs.Ports

/-!
Models under construction. Every declaration makes its checks before it changes anything, so one that
is refused leaves the model as it was (`declare_error`). Whatever is declared, in any order and with
refused declarations in between, the model stays coherent: elements are stored under their own names,
ports belong to their components, and subcomponents, delegations and flows lead to what has been
declared (`coherent_ofDeclarations`). A coherent model can be refused in the end only for a flaw that
no single declaration can rule out (`Flaw`), and it is refused exactly if it has one.
-/
namespace Archflow

namespace Table

variable {α : Type}

theorem insert_of_get? {table : Table α} {key : String} {item : α} (h : table.get? key = some item) :
    table.insert key item = table := by
  apply ext_get?
  intro name
  rw [get?_insert]
  split
  · next hname => rw [hname, h]
  · rfl

theorem contains_iff {table : Table α} {key : String} :
    table.contains key = true ↔ ∃ item, table.get? key = some item := Option.isSome_iff_exists

end Table

namespace Edit

/-! Steps on a model. -/

section
variable {α β : Type} {first : Edit α} {rest : α → Edit β}

/-- Steps that look at a model and leave it as it is. -/
def Reads (edit : Edit α) : Prop := ∀ model, (edit.run.run model).2 = model

/-- Steps that leave the model as it was if they fail. -/
def Atomic (edit : Edit α) : Prop :=
  ∀ model fault, (edit.run.run model).1 = .error fault → (edit.run.run model).2 = model

theorem reads_get : Reads get := fun _ => rfl

theorem reads_lift (outcome : Except Fault α) : Reads (liftM outcome) := fun _ => rfl

theorem reads_pure (value : α) : Reads (pure value) := fun _ => rfl

theorem reads_throw (fault : Fault) : Reads (throw fault : Edit α) := fun _ => rfl

theorem Reads.atomic {edit : Edit α} (h : edit.Reads) : edit.Atomic := fun model _ _ => h model

theorem atomic_modify (change : Model → Model) : Atomic (modify change) := by
  intro model fault h
  cases h

theorem Reads.run_bind (hfirst : first.Reads) (rest : α → Edit β) (model : Model) :
    (first >>= rest).run.run model = match (first.run.run model).1 with
      | .ok value => (rest value).run.run model
      | .error fault => (.error fault, model) := by
  change (ExceptT.bindCont rest (first.run.run model).1).run (first.run.run model).2 = _
  rw [hfirst model]
  cases (first.run.run model).1 <;> rfl

/-- What is checked before anything is changed cannot spoil the model. -/
theorem Reads.bind (hfirst : first.Reads) (hrest : ∀ value, (rest value).Atomic) :
    (first >>= rest).Atomic := by
  intro model fault h
  rw [hfirst.run_bind] at h ⊢
  cases hcheck : (first.run.run model).1 with
  | error other => rfl
  | ok value =>
    rw [hcheck] at h
    exact hrest value model fault h

/-- Steps that have succeeded have passed the check that they begin with. -/
theorem Reads.exists_of_bind_ok {model next : Model} {result : β} (hfirst : first.Reads)
    (h : (first >>= rest).run.run model = (.ok result, next)) :
    ∃ value, (first.run.run model).1 = .ok value ∧
      (rest value).run.run model = (.ok result, next) := by
  rw [hfirst.run_bind] at h
  cases hcheck : (first.run.run model).1 with
  | error fault =>
    rw [hcheck] at h
    cases h
  | ok value =>
    rw [hcheck] at h
    exact ⟨value, rfl, h⟩

end

/-- No declaration fails after it has changed something. -/
theorem atomic_ofDeclaration (declaration : Declaration) : (ofDeclaration declaration).Atomic := by
  cases declaration with
  | componentType owner type =>
    refine reads_get.bind fun model => (reads_lift _).bind fun component => ?_
    exact atomic_modify _
  | port owner name direction type =>
    refine reads_get.bind fun model => (reads_lift _).bind fun component => ?_
    exact (reads_lift _).bind fun _ => atomic_modify _
  | initial ref value =>
    refine reads_get.bind fun model => ?_
    split
    · exact (reads_throw _).atomic
    · exact (reads_lift _).bind fun _ => atomic_modify _
  | subcomponent parent child =>
    refine reads_get.bind fun model => (reads_lift _).bind fun _ => ?_
    exact (reads_lift _).bind fun component => atomic_modify _
  | delegation parent outer inner =>
    refine reads_get.bind fun model => (reads_lift _).bind fun composite => ?_
    exact (reads_lift _).bind fun _ => (reads_lift _).bind fun _ => atomic_modify _
  | connection name flow =>
    refine reads_get.bind fun model => (reads_lift _).bind fun _ => ?_
    split
    · exact (reads_throw _).atomic
    · exact atomic_modify _
  | flow flow => exact reads_get.bind fun model => (reads_lift _).bind fun _ => atomic_modify _
  | registration owner activity =>
    refine reads_get.bind fun model => (reads_lift _).bind fun component => ?_
    split
    · exact (reads_pure _).atomic
    · exact atomic_modify _
  | _ => exact atomic_modify _

end Edit

/-- The component that a declaration adds something to. -/
def Declaration.owner? : Declaration → Option String
  | .componentType owner _ | .port owner _ _ _ | .subcomponent owner _ | .delegation owner _ _
  | .registration owner _ => some owner
  | .initial ref _ => some ref.component
  | _ => none

namespace Model

/-! What declarations do to components. -/

/-- All that a declaration can make of the component it adds something to. -/
inductive Revision (model : Model) (key : String) (component : Component) :
    Declaration → Component → Prop
  | typed (type : String) :
      Revision model key component (.componentType key type) { component with type := some type }
  | port {name : String} (direction : Direction) (type : TypeRef)
      (fresh : component.port? name = none) :
      Revision model key component (.port key name direction type)
        { component with ports := component.ports ++ [{ name, direction, component := key, type }] }
  | initial {name : String} {value : Value} {port : Port} (found : component.port? name = some port)
      (fits : port.checkPayload model.symbols value = .ok ()) :
      Revision model key component (.initial ⟨key, name⟩ value) (component.setPort name value)
  | nested {child : String} (declared : model.components.contains child = true) :
      Revision model key component (.subcomponent key child)
        { component with subcomponents := component.subcomponents ++ [child] }
  | delegated {outer : String} {inner : PortRef} (outside : (component.port? outer).isSome = true)
      (inside : inner.component ∈ component.subcomponents) :
      Revision model key component (.delegation key outer inner)
        { component with delegations := component.delegations ++ [⟨outer, inner⟩] }
  | known {activity : String} (listed : activity ∈ component.activities) :
      Revision model key component (.registration key activity) component
  | registered (activity : String) :
      Revision model key component (.registration key activity)
        { component with activities := component.activities ++ [activity] }

section
variable {model next : Model} {declaration : Declaration} {key : String} {component : Component}

theorem get?_of_component (h : model.component key = .ok component) :
    model.components.get? key = some component := by
  unfold Model.component at h
  split at h
  · next hfound =>
    cases h
    exact hfound
  · cases h

theorem putComponent_of_get? (h : model.components.get? key = some component) :
    model.putComponent key component = model := by
  rw [putComponent, Table.insert_of_get? h]

theorem setPort_eq_putComponent {ref : PortRef} (value : Value)
    (h : model.components.get? ref.component = some component) :
    model.setPort ref value = model.putComponent ref.component (component.setPort ref.port value) := by
  have htable : model.components.modify ref.component (·.setPort ref.port value) =
      model.components.insert ref.component (component.setPort ref.port value) := by
    apply Table.ext_get?
    intro name
    rw [Table.get?_modify, Table.get?_insert]
    split
    · next hname => rw [hname, h, Option.map_some]
    · rfl
  rw [setPort, updateComponent, putComponent, htable]

/-- A declaration about a component finds the component and revises it. -/
theorem revision_of_declare (howner : declaration.owner? = some key)
    (h : model.declare declaration = (.ok (), next)) :
    ∃ component revised, model.components.get? key = some component ∧
      Revision model key component declaration revised ∧ next = model.putComponent key revised := by
  cases declaration with
  | componentType owner type =>
    cases howner
    obtain ⟨_, ⟨⟩, hrest⟩ := Edit.reads_get.exists_of_bind_ok h
    obtain ⟨component, hfound, hnext⟩ := (Edit.reads_lift _).exists_of_bind_ok hrest
    cases hnext
    exact ⟨component, _, get?_of_component hfound, .typed type, rfl⟩
  | port owner name direction type =>
    cases howner
    obtain ⟨_, ⟨⟩, hrest⟩ := Edit.reads_get.exists_of_bind_ok h
    obtain ⟨component, hfound, hrest⟩ := (Edit.reads_lift _).exists_of_bind_ok hrest
    obtain ⟨_, hfresh, hnext⟩ := (Edit.reads_lift _).exists_of_bind_ok hrest
    cases hnext
    have hnone : component.port? name = none := by simpa using of_demand hfresh
    exact ⟨component, _, get?_of_component hfound, .port direction type hnone, rfl⟩
  | initial ref value =>
    cases howner
    obtain ⟨_, ⟨⟩, hrest⟩ := Edit.reads_get.exists_of_bind_ok h
    split at hrest
    · cases hrest
    · next port hport =>
      obtain ⟨_, hfits, hnext⟩ := (Edit.reads_lift _).exists_of_bind_ok hrest
      cases hnext
      obtain ⟨component, hfound, hnamed⟩ := Option.bind_eq_some_iff.1 hport
      exact ⟨component, _, hfound, .initial hnamed hfits, setPort_eq_putComponent value hfound⟩
  | subcomponent parent child =>
    cases howner
    obtain ⟨_, ⟨⟩, hrest⟩ := Edit.reads_get.exists_of_bind_ok h
    obtain ⟨_, hdeclared, hrest⟩ := (Edit.reads_lift _).exists_of_bind_ok hrest
    obtain ⟨component, hfound, hnext⟩ := (Edit.reads_lift _).exists_of_bind_ok hrest
    cases hnext
    exact ⟨component, _, get?_of_component hfound, .nested (of_demand hdeclared), rfl⟩
  | delegation parent outer inner =>
    cases howner
    obtain ⟨_, ⟨⟩, hrest⟩ := Edit.reads_get.exists_of_bind_ok h
    obtain ⟨component, hfound, hrest⟩ := (Edit.reads_lift _).exists_of_bind_ok hrest
    obtain ⟨_, houter, hrest⟩ := (Edit.reads_lift _).exists_of_bind_ok hrest
    obtain ⟨_, hinner, hnext⟩ := (Edit.reads_lift _).exists_of_bind_ok hrest
    cases hnext
    have hlisted := List.contains_iff_mem.1 (of_demand hinner)
    exact ⟨component, _, get?_of_component hfound, .delegated (of_demand houter) hlisted, rfl⟩
  | registration owner activity =>
    cases howner
    obtain ⟨_, ⟨⟩, hrest⟩ := Edit.reads_get.exists_of_bind_ok h
    obtain ⟨component, hfound, hrest⟩ := (Edit.reads_lift _).exists_of_bind_ok hrest
    have hcomponent := get?_of_component hfound
    split at hrest
    · next hlisted =>
      cases hrest
      refine ⟨component, component, hcomponent, .known (List.contains_iff_mem.1 hlisted), ?_⟩
      exact (putComponent_of_get? hcomponent).symm
    · cases hrest
      exact ⟨component, _, hcomponent, .registered activity, rfl⟩
  | _ => cases howner

/-- Any other declaration leaves the components as they are or adds one that has nothing yet. -/
theorem components_of_declare (howner : declaration.owner? = none)
    (h : model.declare declaration = (.ok (), next)) :
    next.components = model.components ∨
      ∃ name, next.components = model.components.insert name { name } := by
  cases declaration with
  | component name =>
    obtain rfl : model.addComponent name = next := (Prod.mk.inj h).2
    unfold addComponent
    split
    · exact .inl rfl
    · exact .inr ⟨name, rfl⟩
  | connection name flow =>
    obtain ⟨_, ⟨⟩, hrest⟩ := Edit.reads_get.exists_of_bind_ok h
    obtain ⟨_, _, hrest⟩ := (Edit.reads_lift _).exists_of_bind_ok hrest
    split at hrest
    · cases hrest
    · cases hrest
      exact .inl rfl
  | flow flow =>
    obtain ⟨_, ⟨⟩, hrest⟩ := Edit.reads_get.exists_of_bind_ok h
    obtain ⟨_, _, hnext⟩ := (Edit.reads_lift _).exists_of_bind_ok hrest
    cases hnext
    exact .inl rfl
  | componentType | port | initial | subcomponent | delegation | registration => cases howner
  | _ =>
    cases h
    exact .inl rfl

end

/-! Coherent models. -/

/-- Both ends of a flow exist; values can leave from one and arrive at the other. -/
structure Joins (model : Model) (flow : Flow) : Prop where
  source : ∃ port, model.port? flow.source = some port ∧ port.direction.canSend = true
  target : ∃ port, model.port? flow.target = some port ∧ port.direction.canReceive = true

/-- A component fits into a model: it has the name that it is stored under, its ports belong to it
and have distinct names, its subcomponents are declared, and it delegates ports of its own to
subcomponents of its own. -/
structure Fits (model : Model) (key : String) (component : Component) : Prop where
  named : component.name = key
  owned : ∀ port ∈ component.ports, port.component = key
  distinct : (component.ports.map Port.name).Nodup
  nested : ∀ child ∈ component.subcomponents, model.components.contains child = true
  delegated : ∀ delegation ∈ component.delegations,
    (component.port? delegation.outer).isSome = true ∧
      delegation.inner.component ∈ component.subcomponents

/-- All other elements are stored under their own names, too. -/
structure Filed (model : Model) : Prop where
  connectors : model.connectors.Keyed Connector.name
  activities : model.activities.Keyed Activity.name
  executables : model.executables.Keyed Executable.name
  constraints : model.constraints.Keyed Constraint.name
  protocols : model.protocols.Keyed Protocol.name

structure Coherent (model : Model) : Prop where
  components : ∀ key component, model.components.get? key = some component →
    model.Fits key component
  filed : model.Filed
  connected : ∀ key connector, model.connectors.get? key = some connector →
    ∀ flow ∈ connector.flows, model.Joins flow
  flows : ∀ flow ∈ model.flows, model.Joins flow

theorem checkFlow_eq_ok_iff {model : Model} {flow : Flow} :
    model.checkFlow flow = .ok () ↔ model.Joins flow := by
  constructor
  · intro h
    obtain ⟨source, hsource, hrest⟩ := exists_of_bind_ok h
    obtain ⟨_, hsend, hrest⟩ := exists_of_bind_ok hrest
    obtain ⟨target, htarget, hreceive⟩ := exists_of_bind_ok hrest
    constructor
    · refine ⟨source, resolve_eq_ok_iff.1 hsource, ?_⟩
      by_contra hcannot
      simp [Port.checkSend, hcannot] at hsend
    · refine ⟨target, resolve_eq_ok_iff.1 htarget, ?_⟩
      by_contra hcannot
      simp [Port.checkReceive, hcannot] at hreceive
  · rintro ⟨⟨source, hsource, hsend⟩, ⟨target, htarget, hreceive⟩⟩
    simp [checkFlow, resolve_eq_ok_iff.2 hsource, resolve_eq_ok_iff.2 htarget, Port.checkSend,
      Port.checkReceive, hsend, hreceive, bind, Except.bind]

/-- A later model has all components and ports of an earlier one, and the ports point the same
way. -/
structure Extends (model later : Model) : Prop where
  declared : ∀ key, model.components.contains key = true → later.components.contains key = true
  ports : ∀ ref port, model.port? ref = some port →
    ∃ found, later.port? ref = some found ∧ found.direction = port.direction

section
variable {model later next : Model} {key : String} {component revised : Component}

theorem Extends.of_components (h : later.components = model.components) : model.Extends later := by
  constructor
  · intro key hdeclared
    rw [h]
    exact hdeclared
  · intro ref port hport
    exact ⟨port, by rw [port?, h]; exact hport, rfl⟩

theorem Joins.extend {flow : Flow} (h : model.Joins flow) (hextends : model.Extends later) :
    later.Joins flow := by
  obtain ⟨⟨source, hsource, hsend⟩, ⟨target, htarget, hreceive⟩⟩ := h
  constructor
  · obtain ⟨found, hfound, hsame⟩ := hextends.ports _ source hsource
    exact ⟨found, hfound, hsame ▸ hsend⟩
  · obtain ⟨found, hfound, hsame⟩ := hextends.ports _ target htarget
    exact ⟨found, hfound, hsame ▸ hreceive⟩

theorem Fits.extend (h : model.Fits key component) (hextends : model.Extends later) :
    later.Fits key component :=
  { h with nested := fun child hmem => hextends.declared child (h.nested child hmem) }

/-- Storing a component extends a model if the ports of the component that it replaces stay. -/
theorem extends_putComponent
    (h : ∀ old, model.components.get? key = some old → ∀ name port, old.port? name = some port →
      ∃ found, component.port? name = some found ∧ found.direction = port.direction) :
    model.Extends (model.putComponent key component) := by
  constructor
  · intro other hdeclared
    rw [Table.contains_iff] at hdeclared ⊢
    obtain ⟨item, hitem⟩ := hdeclared
    simp only [putComponent, Table.get?_insert]
    split
    · exact ⟨component, rfl⟩
    · exact ⟨item, hitem⟩
  · intro ref port hport
    obtain ⟨old, hold, hnamed⟩ := Option.bind_eq_some_iff.1 hport
    simp only [port?, putComponent, Table.get?_insert]
    split
    · next howner => exact h old (howner ▸ hold) ref.port port hnamed
    · exact ⟨port, hport, rfl⟩

theorem Coherent.putComponent (h : model.Coherent)
    (hextends : model.Extends (model.putComponent key component))
    (hfits : (model.putComponent key component).Fits key component) :
    (model.putComponent key component).Coherent := by
  refine ⟨?_, { h.filed with }, ?_, ?_⟩
  · intro name found hfound
    have hget := hfound
    simp only [Model.putComponent, Table.get?_insert] at hget
    split at hget
    · next hname =>
      cases hget
      rw [hname]
      exact hfits
    · exact (h.components name found hget).extend hextends
  · intro name connector hfound flow hmem
    exact (h.connected name connector hfound flow hmem).extend hextends
  · intro flow hmem
    exact (h.flows flow hmem).extend hextends

/-- Where the components stay, only the other elements can be out of order. -/
theorem Coherent.of_components (h : model.Coherent) (hcomponents : later.components = model.components)
    (hfiled : later.Filed)
    (hconnected : ∀ key connector, later.connectors.get? key = some connector →
      ∀ flow ∈ connector.flows, model.Joins flow)
    (hflows : ∀ flow ∈ later.flows, model.Joins flow) : later.Coherent := by
  have hextends := Extends.of_components hcomponents
  refine ⟨?_, hfiled, ?_, ?_⟩
  · intro key component hfound
    rw [hcomponents] at hfound
    exact (h.components key component hfound).extend hextends
  · intro key connector hfound flow hmem
    exact (hconnected key connector hfound flow hmem).extend hextends
  · intro flow hmem
    exact (hflows flow hmem).extend hextends

/-! Every declaration keeps a model coherent. -/

/-- A revision takes no port away and turns none around. -/
theorem Revision.port? {declaration : Declaration}
    (revision : Revision model key component declaration revised) {name : String} {port : Port}
    (hport : component.port? name = some port) :
    ∃ found, revised.port? name = some found ∧ found.direction = port.direction := by
  cases revision with
  | port direction type fresh =>
    refine ⟨port, ?_, rfl⟩
    have hfind : component.ports.find? (fun port => port.name == name) = some port := hport
    simp only [Component.port?, List.find?_append, hfind, Option.some_or]
  | @initial other value slot found fits =>
    rw [Component.port?_setPort]
    by_cases hname : name = other
    · rw [hname] at hport
      rw [if_pos hname, hport]
      exact ⟨port.holding value, rfl, rfl⟩
    · rw [if_neg hname]
      exact ⟨port, hport, rfl⟩
  | _ => exact ⟨port, hport, rfl⟩

theorem Revision.isSome_port? {declaration : Declaration}
    (revision : Revision model key component declaration revised) {name : String}
    (h : (component.port? name).isSome = true) : (revised.port? name).isSome = true := by
  obtain ⟨port, hport⟩ := Option.isSome_iff_exists.1 h
  obtain ⟨found, hfound, _⟩ := revision.port? hport
  rw [hfound]
  rfl

theorem Fits.revise {declaration : Declaration} (h : model.Fits key component)
    (revision : Revision model key component declaration revised) : model.Fits key revised := by
  have houter := @revision.isSome_port?
  cases revision with
  | typed type => exact { h with }
  | @port name direction type fresh =>
    have hfresh : name ∉ component.ports.map Port.name := by
      intro hmem
      obtain ⟨port, hport, hname⟩ := List.mem_map.1 hmem
      exact List.find?_eq_none.1 fresh port hport (by simpa using hname)
    refine { h with owned := ?_, distinct := ?_, delegated := ?_ }
    · intro port hmem
      rcases List.mem_append.1 hmem with hold | hnew
      · exact h.owned port hold
      · rw [List.mem_singleton.1 hnew]
    · rw [List.map_append, List.map_singleton]
      refine List.nodup_append.2 ⟨h.distinct, by simp, ?_⟩
      intro old hold new hnew heq
      rw [heq, List.mem_singleton.1 hnew] at hold
      exact hfresh hold
    · intro delegation hmem
      exact (h.delegated delegation hmem).imp_left houter
  | @initial name value slot found fits =>
    have hnames : (component.setPort name value).ports.map Port.name =
        component.ports.map Port.name := by
      apply map_updateFirst
      exact fun _ => rfl
    have howners : (component.setPort name value).ports.map Port.component =
        component.ports.map Port.component := by
      apply map_updateFirst
      exact fun _ => rfl
    refine { h with owned := ?_, distinct := hnames ▸ h.distinct, delegated := ?_ }
    · intro port hmem
      have howner : port.component ∈ component.ports.map Port.component :=
        howners ▸ List.mem_map_of_mem hmem
      obtain ⟨old, hold, hsame⟩ := List.mem_map.1 howner
      rw [← hsame, h.owned old hold]
    · intro delegation hmem
      exact (h.delegated delegation hmem).imp_left houter
  | @nested child declared =>
    refine { h with nested := ?_, delegated := ?_ }
    · intro other hmem
      rcases List.mem_append.1 hmem with hold | hnew
      · exact h.nested other hold
      · rw [List.mem_singleton.1 hnew]
        exact declared
    · intro delegation hmem
      obtain ⟨houter, hinner⟩ := h.delegated delegation hmem
      exact ⟨houter, List.mem_append_left _ hinner⟩
  | @delegated outer inner outside inside =>
    refine { h with delegated := ?_ }
    intro delegation hmem
    rcases List.mem_append.1 hmem with hold | hnew
    · exact h.delegated delegation hold
    · rw [List.mem_singleton.1 hnew]
      exact ⟨outside, inside⟩
  | known listed => exact h
  | registered activity => exact { h with }

theorem Coherent.addComponent (h : model.Coherent) (name : String) :
    (model.addComponent name).Coherent := by
  unfold Model.addComponent
  split
  · exact h
  · next hfresh =>
    have hnone (old : Component) : model.components.get? name ≠ some old := by
      intro hfound
      exact hfresh (Table.contains_iff.2 ⟨old, hfound⟩)
    apply h.putComponent
    · apply extends_putComponent
      intro old hold
      exact absurd hold (hnone old)
    · constructor <;> simp

/-- A connector can be stored under its name if all its flows lead from port to port. -/
theorem Coherent.putConnector (h : model.Coherent) {name : String} {connector : Connector}
    (hname : connector.name = name) (hflows : ∀ flow ∈ connector.flows, model.Joins flow) :
    Coherent { model with connectors := model.connectors.insert name connector } := by
  subst hname
  refine h.of_components rfl { h.filed with connectors := h.filed.connectors.insert connector } ?_
    h.flows
  intro key found hfound
  rw [Table.get?_insert] at hfound
  split at hfound
  · cases hfound
    exact hflows
  · exact h.connected key found hfound

theorem Coherent.addConnector (h : model.Coherent) (name : String)
    (transform constraint : Option String) :
    (model.addConnector name transform constraint).Coherent := by
  unfold Model.addConnector
  cases hfound : model.connectors.get? name with
  | none => exact h.putConnector rfl (by simp)
  | some found =>
    exact h.putConnector (h.filed.connectors name found hfound) (h.connected name found hfound)

theorem Coherent.declare {declaration : Declaration} (h : model.Coherent)
    (hdeclared : model.declare declaration = (.ok (), next)) : next.Coherent := by
  cases howner : declaration.owner? with
  | some key =>
    obtain ⟨component, revised, hfound, hrevision, rfl⟩ := revision_of_declare howner hdeclared
    have hextends : model.Extends (model.putComponent key revised) := by
      apply extends_putComponent
      intro old hold name port hport
      cases hold.symm.trans hfound
      exact hrevision.port? hport
    have hrevised := (h.components key component hfound).revise hrevision
    exact h.putComponent hextends (hrevised.extend hextends)
  | none =>
    cases declaration with
    | enumeration | datatype | valueType | allocation =>
      cases hdeclared
      exact h.of_components rfl { h.filed with } h.connected h.flows
    | component name =>
      cases hdeclared
      exact h.addComponent name
    | connector name transform constraint =>
      cases hdeclared
      exact h.addConnector name transform constraint
    | connection name flow =>
      obtain ⟨_, ⟨⟩, hrest⟩ := Edit.reads_get.exists_of_bind_ok hdeclared
      obtain ⟨_, hflow, hrest⟩ := (Edit.reads_lift _).exists_of_bind_ok hrest
      split at hrest
      · cases hrest
      · next found hfound =>
        cases hrest
        refine h.putConnector (h.filed.connectors name found hfound) ?_
        intro other hmem
        rcases List.mem_append.1 hmem with hold | hnew
        · exact h.connected name found hfound other hold
        · rw [List.mem_singleton.1 hnew]
          exact checkFlow_eq_ok_iff.1 hflow
    | flow flow =>
      obtain ⟨_, ⟨⟩, hrest⟩ := Edit.reads_get.exists_of_bind_ok hdeclared
      obtain ⟨_, hflow, hnext⟩ := (Edit.reads_lift _).exists_of_bind_ok hrest
      cases hnext
      refine h.of_components rfl { h.filed with } h.connected ?_
      intro other hmem
      rcases List.mem_append.1 hmem with hold | hnew
      · exact h.flows other hold
      · rw [List.mem_singleton.1 hnew]
        exact checkFlow_eq_ok_iff.1 hflow
    | executable item =>
      cases hdeclared
      exact h.of_components rfl { h.filed with executables := h.filed.executables.insert item }
        h.connected h.flows
    | constraint item =>
      cases hdeclared
      exact h.of_components rfl { h.filed with constraints := h.filed.constraints.insert item }
        h.connected h.flows
    | activity item =>
      cases hdeclared
      exact h.of_components rfl { h.filed with activities := h.filed.activities.insert item }
        h.connected h.flows
    | protocol item =>
      cases hdeclared
      exact h.of_components rfl { h.filed with protocols := h.filed.protocols.insert item }
        h.connected h.flows
    | _ => cases howner

end

/-! Sequences of declarations. -/

/-- A declaration that is refused leaves the model as it was. -/
theorem declare_error {model : Model} {declaration : Declaration} {fault : Fault}
    (h : (model.declare declaration).1 = .error fault) : (model.declare declaration).2 = model :=
  Edit.atomic_ofDeclaration declaration model fault h

theorem ofDeclarations_concat (name : String) (declarations : List Declaration)
    (declaration : Declaration) :
    ofDeclarations name (declarations ++ [declaration]) =
      ((ofDeclarations name declarations).declare declaration).2 := by
  simp [ofDeclarations]

/-- What the empty model satisfies and every accepted declaration preserves holds of all models that
declarations build. -/
theorem ofDeclarations_induction {holds : Model → Prop} {name : String} (hempty : holds { name })
    (hstep : ∀ model declaration next, holds model → model.declare declaration = (.ok (), next) →
      holds next)
    (declarations : List Declaration) : holds (ofDeclarations name declarations) := by
  refine List.foldlRecOn (motive := holds) declarations _ hempty ?_
  intro model hmodel declaration _
  cases houtcome : (model.declare declaration).1 with
  | ok => exact hstep model declaration _ hmodel (Prod.ext houtcome rfl)
  | error fault =>
    rw [declare_error houtcome]
    exact hmodel

theorem coherent_ofDeclarations (name : String) (declarations : List Declaration) :
    (ofDeclarations name declarations).Coherent := by
  refine ofDeclarations_induction ⟨?_, ?_, ?_, ?_⟩ (fun _ _ _ h => h.declare) declarations
  · intro key component hfound
    cases hfound
  · constructor <;> exact Table.keyed_empty _
  · intro key connector hfound
    cases hfound
  · intro flow hmem
    cases hmem

/-! What a coherent model can still be refused for. -/

/-- The flaws of a model that no single declaration is refused for, each with the fault that it is
reported as. -/
inductive Flaw (model : Model) : Fault → Prop
  /-- A component is listed among its own subcomponents. -/
  | ownChild {key : String} (listed : key ∈ model.children key) :
      Flaw model (.invalidModel (.invalidSubcomponent key key))
  /-- A component contains itself through others. -/
  | circle {outer inner : String} (inside : model.Encloses outer inner)
      (back : outer ∈ model.children inner) :
      Flaw model (.invalidModel (.containsItself outer inner))
  /-- A port is delegated to one that a subcomponent does not have. -/
  | noInnerPort {key : String} {component child : Component} {delegation : PortDelegation}
      (found : model.components.get? key = some component)
      (listed : delegation ∈ component.delegations)
      (declared : model.components.get? delegation.inner.component = some child)
      (missing : child.port? delegation.inner.port = none) :
      Flaw model (.unresolved (.port delegation.inner (child.ports.map Port.name)))
  | noActivity {key activity : String} {component : Component}
      (found : model.components.get? key = some component) (listed : activity ∈ component.activities)
      (missing : model.activities.contains activity = false) :
      Flaw model (.invalidModel (.unknownActivity key activity))
  | noTransform {key transform : String} {connector : Connector}
      (found : model.connectors.get? key = some connector)
      (used : connector.transform = some transform)
      (missing : model.executables.contains transform = false) :
      Flaw model (.invalidModel (.unknownTransform key transform))
  | noConstraint {key constraint : String} {connector : Connector}
      (found : model.connectors.get? key = some connector)
      (used : connector.constraint = some constraint)
      (missing : model.constraints.contains constraint = false) :
      Flaw model (.invalidModel (.unknownConstraint key constraint))
  | noProtocolComponent {key component : String} {protocol : Protocol}
      (found : model.protocols.get? key = some protocol)
      (used : protocol.component = some component)
      (missing : model.components.contains component = false) :
      Flaw model (.invalidModel (.unknownProtocolComponent key component))

section
variable {model : Model} {key : String} {component : Component} {fault : Fault}

theorem mem_children_of_get? {child : String} (hfound : model.components.get? key = some component)
    (hmem : child ∈ component.subcomponents) : child ∈ model.children key := by
  simpa only [children, hfound] using hmem

/-- The inner component of a delegation is there, so only the port can be missing. -/
theorem flaw_of_checkDelegation (hfits : model.Fits key component)
    (hfound : model.components.get? key = some component) {delegation : PortDelegation}
    (hlisted : delegation ∈ component.delegations)
    (h : model.checkDelegation key component delegation = .error fault) : model.Flaw fault := by
  obtain ⟨_, hinner⟩ := hfits.delegated delegation hlisted
  obtain ⟨child, hchild⟩ := Table.contains_iff.1 (hfits.nested _ hinner)
  rcases error_of_bind h with hdemand | ⟨_, _, hresolve⟩
  · rw [List.contains_iff_mem.2 hinner] at hdemand
    cases hdemand
  · simp only [resolve, hchild] at hresolve
    cases hport : child.port? delegation.inner.port with
    | none =>
      rw [hport] at hresolve
      cases hresolve
      exact .noInnerPort hfound hlisted hchild hport
    | some port =>
      rw [hport] at hresolve
      cases hresolve

theorem flaw_of_checkComponent (hfits : model.Fits key component)
    (hfound : model.components.get? key = some component)
    (h : model.checkComponent key component = .error fault) : model.Flaw fault := by
  rcases error_of_bind h with hname | ⟨_, _, h⟩
  · have hmisnamed := (demand_error hname).1
    simp [hfits.named] at hmisnamed
  rcases error_of_bind h with hports | ⟨_, _, h⟩
  · obtain ⟨port, hmem, hport⟩ := exists_of_forM_error hports
    have hmisowned := (demand_error hport).1
    simp [hfits.owned port hmem] at hmisowned
  rcases error_of_bind h with hchildren | ⟨_, _, h⟩
  · obtain ⟨child, hmem, hchild⟩ := exists_of_forM_error hchildren
    obtain ⟨hinvalid, rfl⟩ := demand_error hchild
    rw [hfits.nested child hmem, Bool.and_true, bne_eq_false_iff_eq] at hinvalid
    subst hinvalid
    exact .ownChild (mem_children_of_get? hfound hmem)
  rcases error_of_bind h with hdelegations | ⟨_, _, hactivities⟩
  · obtain ⟨delegation, hmem, hdelegation⟩ := exists_of_forM_error hdelegations
    exact flaw_of_checkDelegation hfits hfound hmem hdelegation
  · obtain ⟨activity, hmem, hactivity⟩ := exists_of_forM_error hactivities
    obtain ⟨hmissing, rfl⟩ := demand_error hactivity
    exact .noActivity hfound hmem hmissing

/-- A check of an element that may be absent fails only on one that is there. -/
theorem exists_of_option_forM_error {α : Type} {check : α → Except Fault Unit} {item : Option α}
    (h : item.forM check = .error fault) : ∃ found, item = some found ∧ check found = .error fault := by
  cases item with
  | none => cases h
  | some found => exact ⟨found, rfl, h⟩

theorem flaw_of_checkConnector (hcoherent : model.Coherent) {connector : Connector}
    (hfound : model.connectors.get? key = some connector)
    (h : model.checkConnector connector = .error fault) : model.Flaw fault := by
  have hname := hcoherent.filed.connectors key connector hfound
  rcases error_of_bind h with hflows | ⟨_, _, h⟩
  · obtain ⟨flow, hmem, hflow⟩ := exists_of_forM_error hflows
    rw [checkFlow_eq_ok_iff.2 (hcoherent.connected key connector hfound flow hmem)] at hflow
    cases hflow
  rcases error_of_bind h with htransform | ⟨_, _, hconstraint⟩
  · obtain ⟨transform, hused, hdemand⟩ := exists_of_option_forM_error htransform
    obtain ⟨hmissing, rfl⟩ := demand_error hdemand
    rw [hname]
    exact .noTransform hfound hused hmissing
  · obtain ⟨constraint, hused, hdemand⟩ := exists_of_option_forM_error hconstraint
    obtain ⟨hmissing, rfl⟩ := demand_error hdemand
    rw [hname]
    exact .noConstraint hfound hused hmissing

theorem exists_of_mem_items {α : Type} {table : Table α} {item : α} (h : item ∈ table.items) :
    ∃ key, table.get? key = some item := by
  obtain ⟨⟨key, found⟩, hmem, rfl⟩ := List.mem_map.1 h
  exact ⟨key, Table.get?_of_mem hmem⟩

theorem flaw_of_validate (hcoherent : model.Coherent) (h : model.validate = .error fault) :
    model.Flaw fault := by
  rcases error_of_bind h with hcomponents | ⟨_, _, h⟩
  · obtain ⟨⟨key, component⟩, hmem, hcomponent⟩ := exists_of_forM_error hcomponents
    have hfound := Table.get?_of_mem hmem
    exact flaw_of_checkComponent (hcoherent.components key component hfound) hfound hcomponent
  rcases error_of_bind h with hcontainment | ⟨_, _, h⟩
  · obtain ⟨outer, inner, rfl, hinside, hback⟩ := circle_of_checkContainment hcontainment
    exact .circle hinside hback
  rcases error_of_bind h with hconnectors | ⟨_, _, h⟩
  · obtain ⟨connector, hmem, hconnector⟩ := exists_of_forM_error hconnectors
    obtain ⟨key, hfound⟩ := exists_of_mem_items hmem
    exact flaw_of_checkConnector hcoherent hfound hconnector
  rcases error_of_bind h with hflows | ⟨_, _, hprotocols⟩
  · obtain ⟨flow, hmem, hflow⟩ := exists_of_forM_error hflows
    rw [checkFlow_eq_ok_iff.2 (hcoherent.flows flow hmem)] at hflow
    cases hflow
  · obtain ⟨protocol, hmem, hprotocol⟩ := exists_of_forM_error hprotocols
    obtain ⟨key, hfound⟩ := exists_of_mem_items hmem
    obtain ⟨component, hused, hdemand⟩ := exists_of_option_forM_error hprotocol
    obtain ⟨hmissing, rfl⟩ := demand_error hdemand
    rw [hcoherent.filed.protocols key protocol hfound]
    exact .noProtocolComponent hfound hused hmissing

theorem contains_activity_of_validate (hvalid : model.validate = .ok ())
    (hfound : model.components.get? key = some component) {activity : String}
    (hlisted : activity ∈ component.activities) : model.activities.contains activity = true := by
  obtain ⟨_, hcomponents, -⟩ := exists_of_bind_ok hvalid
  have h := forall_of_forM_ok hcomponents _ (Entries.mem_of_lookup hfound)
  -- the activities come last, after the name, the ports, the subcomponents and the delegations
  obtain ⟨_, -, h⟩ := exists_of_bind_ok h
  obtain ⟨_, -, h⟩ := exists_of_bind_ok h
  obtain ⟨_, -, h⟩ := exists_of_bind_ok h
  obtain ⟨_, -, hactivities⟩ := exists_of_bind_ok h
  exact of_demand (forall_of_forM_ok hactivities activity hlisted)

theorem checkConnector_of_validate (hvalid : model.validate = .ok ()) {connector : Connector}
    (hfound : model.connectors.get? key = some connector) :
    model.checkConnector connector = .ok () := by
  obtain ⟨_, -, h⟩ := exists_of_bind_ok hvalid
  obtain ⟨_, -, h⟩ := exists_of_bind_ok h
  obtain ⟨_, hconnectors, -⟩ := exists_of_bind_ok h
  have hmem : connector ∈ model.connectors.items :=
    List.mem_map_of_mem (Entries.mem_of_lookup hfound)
  exact forall_of_forM_ok hconnectors connector hmem

theorem checkProtocol_of_validate (hvalid : model.validate = .ok ()) {protocol : Protocol}
    (hfound : model.protocols.get? key = some protocol) : model.checkProtocol protocol = .ok () := by
  obtain ⟨_, -, h⟩ := exists_of_bind_ok hvalid
  obtain ⟨_, -, h⟩ := exists_of_bind_ok h
  obtain ⟨_, -, h⟩ := exists_of_bind_ok h
  obtain ⟨_, -, hprotocols⟩ := exists_of_bind_ok h
  have hmem : protocol ∈ model.protocols.items :=
    List.mem_map_of_mem (Entries.mem_of_lookup hfound)
  exact forall_of_forM_ok hprotocols protocol hmem

theorem not_flaw_of_validate (hvalid : model.validate = .ok ()) : ¬ model.Flaw fault := by
  intro hflaw
  have hsearch := checkContainment_of_validate hvalid
  cases hflaw with
  | ownChild listed => exact not_mem_children_of_encloses hsearch .refl listed
  | circle inside back => exact not_mem_children_of_encloses hsearch inside back
  | noInnerPort found listed declared missing =>
    obtain ⟨_, port, hresolve⟩ := (wellFormed_of_validate hvalid found).delegated _ listed
    simp [resolve, declared, missing] at hresolve
  | noActivity found listed missing =>
    rw [contains_activity_of_validate hvalid found listed] at missing
    cases missing
  | noTransform found used missing =>
    obtain ⟨_, -, h⟩ := exists_of_bind_ok (checkConnector_of_validate hvalid found)
    obtain ⟨_, htransform, -⟩ := exists_of_bind_ok h
    rw [used] at htransform
    rw [of_demand htransform] at missing
    cases missing
  | noConstraint found used missing =>
    obtain ⟨_, -, h⟩ := exists_of_bind_ok (checkConnector_of_validate hvalid found)
    obtain ⟨_, -, hconstraint⟩ := exists_of_bind_ok h
    rw [used] at hconstraint
    rw [of_demand hconstraint] at missing
    cases missing
  | noProtocolComponent found used missing =>
    have hprotocol := checkProtocol_of_validate hvalid found
    rw [checkProtocol, used] at hprotocol
    rw [of_demand hprotocol] at missing
    cases missing

theorem build_eq_error_iff : model.build = .error fault ↔ model.validate = .error fault := by
  unfold build
  cases model.validate <;> simp [bind, Except.bind, pure, Except.pure]

theorem build_eq_ok_iff {built : Model} :
    model.build = .ok built ↔ model.validate = .ok () ∧ model = built := by
  unfold build
  cases model.validate <;> simp [bind, Except.bind, pure, Except.pure]

end

/-- Whatever declarations have been made, a refused one leaves the model as it is, the model is
coherent, and finishing it fails only with one of the flaws: if it has none, it is handed over. -/
theorem declarations_coherent (name : String) (declarations : List Declaration) :
    (∀ declaration fault, ((ofDeclarations name declarations).declare declaration).1 = .error fault →
      ofDeclarations name (declarations ++ [declaration]) = ofDeclarations name declarations) ∧
    (ofDeclarations name declarations).Coherent ∧
    (∀ fault, (ofDeclarations name declarations).build = .error fault →
      (ofDeclarations name declarations).Flaw fault) ∧
    ((ofDeclarations name declarations).build = .ok (ofDeclarations name declarations) ↔
      ∀ fault, ¬ (ofDeclarations name declarations).Flaw fault) := by
  have hcoherent := coherent_ofDeclarations name declarations
  have hflaw (fault : Fault) (h : (ofDeclarations name declarations).build = .error fault) :=
    flaw_of_validate hcoherent (build_eq_error_iff.1 h)
  refine ⟨?_, hcoherent, hflaw, ?_, ?_⟩
  · intro declaration fault hrefused
    rw [ofDeclarations_concat, declare_error hrefused]
  · intro hbuilt fault
    exact not_flaw_of_validate (build_eq_ok_iff.1 hbuilt).1
  · intro hnone
    cases hbuilt : (ofDeclarations name declarations).build with
    | error fault => exact absurd (hflaw fault hbuilt) (hnone fault)
    | ok built => rw [(build_eq_ok_iff.1 hbuilt).2]

def entangled : List Declaration :=
  [.component "pump", .component "tank", .port "pump" "in" .input .any,
    .subcomponent "pump" "tank", .subcomponent "tank" "pump"]

/-- A port that is declared twice is refused and forgotten. All else was accepted, and the model is
refused in the end because the pump contains itself. -/
theorem entangled_refused :
    ((ofDeclarations "plant" entangled).declare (.port "pump" "in" .output .any)).1 =
      .error (.invalidModel (.portDeclaredTwice "in" "pump")) ∧
    ofDeclarations "plant" (entangled ++ [.port "pump" "in" .output .any]) =
      ofDeclarations "plant" entangled ∧
    (ofDeclarations "plant" entangled).Coherent ∧
    (ofDeclarations "plant" entangled).build =
      .error (.invalidModel (.containsItself "pump" "tank")) ∧
    (ofDeclarations "plant" entangled).Flaw (.invalidModel (.containsItself "pump" "tank")) ∧
    ¬ ∀ fault, ¬ (ofDeclarations "plant" entangled).Flaw fault := by
  have hrefused : ((ofDeclarations "plant" entangled).declare (.port "pump" "in" .output .any)).1 =
      .error (.invalidModel (.portDeclaredTwice "in" "pump")) := rfl
  have hbuild : (ofDeclarations "plant" entangled).build =
      .error (.invalidModel (.containsItself "pump" "tank")) := rfl
  obtain ⟨hkept, hcoherent, hflaw, hiff⟩ := declarations_coherent "plant" entangled
  refine ⟨hrefused, hkept _ _ hrefused, hcoherent, hbuild, hflaw _ hbuild, fun hnone => ?_⟩
  have hbuilt := hiff.2 hnone
  rw [hbuild] at hbuilt
  cases hbuilt

end Model
end Archflow
