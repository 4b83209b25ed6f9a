import Archflow.Proofs.Ports
import Mathlib.Data.List.Induction

/-!
Where a received value goes. The ports that it reaches are met depth first: a port, then the ports
it passes the value on to in order of declaration, each with all that is behind it (`reachFrom`). The
loop over pending ports, which ends as every round leaves it less to do (`pendingWeight`), meets them
in this order and fails where this order fails first (`receiveTargets_eq`). If all of them accept the
value, then each one takes it, and so does the entry of its name in the state of its component, and
the trace tells of one port after the other (`receive_in_preorder`).
-/
namespace Archflow

namespace Model

/-- The ports that a value reaches from a port so many hops away. A port that is too far away, or is
not there, or does not accept the value is a fault, and the first one met is reported. -/
def reachFrom (model : Model) (limit : Nat) (value : Value) (hops : Nat) (ref : PortRef) :
    Except Fault (List PortRef) :=
  if h : limit < hops then .error (.cascadeLimitExceeded limit)
  else do
    let port ← model.resolve ref
    port.checkReceive
    port.checkPayload model.symbols value
    let behind ← (model.delegates ref).mapM fun inner =>
      model.reachFrom limit value (hops + 1) inner
    .ok (ref :: behind.flatten)
termination_by limit + 1 - hops

section
variable {model : Model} {limit hops : Nat} {value : Value}

theorem reachFrom_of_lt (h : limit < hops) (ref : PortRef) :
    model.reachFrom limit value hops ref = .error (.cascadeLimitExceeded limit) := by
  rw [reachFrom, dif_pos h]

theorem reachFrom_of_le (h : hops ≤ limit) (ref : PortRef) :
    model.reachFrom limit value hops ref = (do
      model.checkReceive ref value
      let behind ← (model.delegates ref).mapM (model.reachFrom limit value (hops + 1))
      .ok (ref :: behind.flatten)) := by
  rw [reachFrom, dif_neg (Nat.not_lt.2 h)]
  simp only [checkReceive, bind_assoc]

theorem receiveLoop_of_le (h : hops ≤ limit) (ref : PortRef) (targets : List PortRef)
    (rest : List (PortRef × Nat)) :
    model.receiveLoop limit value targets ((ref, hops) :: rest) = (do
      model.checkReceive ref value
      model.receiveLoop limit value (targets ++ [ref])
        ((model.delegates ref).map (·, hops + 1) ++ rest)) := by
  rw [receiveLoop, dif_neg (Nat.not_lt.2 h)]
  cases model.checkReceive ref value <;> rfl

theorem receiveLoop_of_lt (h : limit < hops) (ref : PortRef) (targets : List PortRef)
    (rest : List (PortRef × Nat)) :
    model.receiveLoop limit value targets ((ref, hops) :: rest) =
      .error (.cascadeLimitExceeded limit) := by
  rw [receiveLoop, dif_pos h]

/-- If the loop meets all that is behind a single port before it goes on, then it does so for several
ports one after the other. -/
theorem receiveLoop_map_append
    (hsingle : ∀ ref targets rest, model.receiveLoop limit value targets ((ref, hops) :: rest) =
      (model.reachFrom limit value hops ref >>= fun met =>
        model.receiveLoop limit value (targets ++ met) rest))
    (refs targets : List PortRef) (rest : List (PortRef × Nat)) :
    model.receiveLoop limit value targets (refs.map (·, hops) ++ rest) =
      (refs.mapM (model.reachFrom limit value hops) >>= fun met =>
        model.receiveLoop limit value (targets ++ met.flatten) rest) := by
  induction refs generalizing targets with
  | nil => simp
  | cons ref refs ih =>
    rw [List.map_cons, List.cons_append, hsingle, List.mapM_cons]
    simp only [ih, bind_assoc, pure_bind, List.flatten_cons, List.append_assoc]

/-- The loop meets all that is behind a port before it goes on to the next pending one. -/
theorem receiveLoop_cons (hops : Nat) (ref : PortRef) (targets : List PortRef)
    (rest : List (PortRef × Nat)) :
    model.receiveLoop limit value targets ((ref, hops) :: rest) =
      (model.reachFrom limit value hops ref >>= fun met =>
        model.receiveLoop limit value (targets ++ met) rest) := by
  -- Delegations may form circles, so the induction is on the hops that are left.
  induction hleft : limit + 1 - hops generalizing hops ref targets rest with
  | zero =>
    have hfar : limit < hops := by omega
    rw [receiveLoop_of_lt hfar, reachFrom_of_lt hfar]
    rfl
  | succ left ih =>
    have hnear : hops ≤ limit := by omega
    have hbehind := receiveLoop_map_append
      (fun ref targets rest => ih (hops + 1) ref targets rest (by omega))
    rw [receiveLoop_of_le hnear, reachFrom_of_le hnear]
    simp only [hbehind, bind_assoc]
    simp only [List.append_assoc, List.singleton_append]
    rfl

/-- All ports that a value reaches, or the fault that is met first on the way to them. -/
theorem receiveTargets_eq (model : Model) (limit : Nat) (ref : PortRef) (value : Value) :
    model.receiveTargets limit ref value = model.reachFrom limit value 0 ref := by
  rw [receiveTargets, receiveLoop_cons]
  simp only [List.nil_append, receiveLoop]
  cases model.reachFrom limit value 0 ref <;> rfl

end
end Model

/-! Landing on the ports that were met. -/

theorem mapIdx_self {α : Type} (items : List α) : (items.mapIdx fun _ item => item) = items :=
  List.ext_getElem (by simp) (by simp)

theorem updateFirst_eq_mapIdx {α : Type} (test : α → Bool) (change : α → α) (items : List α) :
    updateFirst test change items =
      items.mapIdx fun place item =>
        if items.findIdx? test = some place then change item else item := by
  induction items with
  | nil => rfl
  | cons item rest ih =>
    rw [updateFirst, List.findIdx?_cons, List.mapIdx_cons]
    by_cases h : test item
    · simp [h, mapIdx_self]
    · simp [h, ih]

/-- The place of the port that a name leads to, which is the first one of that name. -/
def Component.placeOf? (component : Component) (name : String) : Option Nat :=
  component.ports.findIdx? fun port => port.name == name

/-- A component that has received a value under some names. The ports that the names lead to hold it,
and the state has it under the names. -/
def Component.receiving (component : Component) (names : List String) (value : Value) : Component :=
  { component with
    ports := component.ports.mapIdx fun place port =>
      if port.name ∈ names ∧ component.placeOf? port.name = some place then port.holding value
      else port
    state := component.state.insertAll (names.map (·, value)) }

namespace Component

theorem receiving_nil (component : Component) (value : Value) :
    component.receiving [] value = component := by
  simp [receiving, mapIdx_self, Table.insertAll]

theorem placeOf?_receiving (component : Component) (names : List String) (value : Value)
    (name : String) : (component.receiving names value).placeOf? name = component.placeOf? name := by
  have hnames : (component.receiving names value).ports.map Port.name =
      component.ports.map Port.name := by
    apply List.ext_getElem
    · simp [receiving]
    · intro place h h'
      simp only [receiving, List.getElem_map, List.getElem_mapIdx]
      split <;> rfl
  have hplace (ports : List Port) : ports.findIdx? (fun port => port.name == name) =
      (ports.map Port.name).findIdx? (· == name) := by
    rw [List.findIdx?_map]
    rfl
  rw [placeOf?, placeOf?, hplace, hplace, hnames]

theorem name_of_placeOf? {component : Component} {name : String} {place : Nat}
    (h : component.placeOf? name = some place) (hplace : place < component.ports.length) :
    component.ports[place].name = name := by
  obtain ⟨_, htest, -⟩ := List.findIdx?_eq_some_iff_getElem.1 h
  exact eq_of_beq htest

/-- One name more is one port more: the port that the name leads to, if it does not hold the value
already. -/
theorem ports_receiving_concat (component : Component) (names : List String) (name : String)
    (value : Value) :
    (component.receiving (names ++ [name]) value).ports =
      updateFirst (fun port => port.name == name) (·.holding value)
        (component.receiving names value).ports := by
  have hplace : (component.receiving names value).ports.findIdx? (fun port => port.name == name) =
      component.placeOf? name := component.placeOf?_receiving names value name
  rw [updateFirst_eq_mapIdx, hplace]
  simp only [receiving, List.mapIdx_mapIdx]
  refine List.mapIdx_eq_mapIdx_iff.2 fun place hlt => ?_
  change _ = if component.placeOf? name = some place then _ else _
  by_cases hfirst : component.placeOf? name = some place
  · have hname := name_of_placeOf? hfirst hlt
    simp only [hfirst, hname, if_true, List.mem_append, List.mem_singleton, or_true, true_and]
    split <;> rfl
  · have hother : component.placeOf? component.ports[place].name = some place →
        component.ports[place].name ≠ name := by
      intro hthis heq
      rw [heq] at hthis
      exact hfirst hthis
    simp only [hfirst, if_false, List.mem_append, List.mem_singleton]
    congr 1
    simp only [eq_iff_iff]
    tauto

theorem receiving_concat (component : Component) (names : List String) (name : String)
    (value : Value) :
    component.receiving (names ++ [name]) value =
      ((component.receiving names value).setPort name value).setState name value := by
  have hports := component.ports_receiving_concat names name value
  have hstate : component.state.insertAll ((names ++ [name]).map (·, value)) =
      (component.state.insertAll (names.map (·, value))).insert name value := by
    simp [Table.insertAll]
  calc component.receiving (names ++ [name]) value
    _ = { component with
          ports := (component.receiving (names ++ [name]) value).ports
          state := component.state.insertAll ((names ++ [name]).map (·, value)) } := rfl
    _ = ((component.receiving names value).setPort name value).setState name value := by
      rw [hports, hstate]
      rfl

end Component

namespace Model

def receiving (model : Model) (refs : List PortRef) (value : Value) : Model :=
  { model with
    components := model.components.map fun key component =>
      component.receiving ((refs.filter (·.component = key)).map PortRef.port) value }

theorem receiving_nil (model : Model) (value : Value) : model.receiving [] value = model := by
  have hcomponents : (model.receiving [] value).components = model.components := by
    apply Table.ext_get?
    intro key
    simp [receiving, Component.receiving_nil]
  exact congrArg (fun components => { model with components }) hcomponents

theorem receiving_concat (model : Model) (refs : List PortRef) (ref : PortRef) (value : Value) :
    model.receiving (refs ++ [ref]) value =
      ((model.receiving refs value).setPort ref value).setState ref.component ref.port value := by
  have hcomponents : (model.receiving (refs ++ [ref]) value).components =
      (((model.receiving refs value).setPort ref value).setState ref.component ref.port
        value).components := by
    apply Table.ext_get?
    intro key
    simp only [receiving, setPort, setState, updateComponent, Table.get?_modify, Table.get?_map]
    by_cases hkey : key = ref.component
    · subst hkey
      cases model.components.get? ref.component <;> simp [Component.receiving_concat]
    · simp [hkey, Ne.symm hkey]
  exact congrArg (fun components => { model with components }) hcomponents

end Model

/-- The trace with one more entry for each port that has received a value, in this order. -/
def Trace.received (trace : Trace) (targets : List PortRef) (value : Value) : Trace where
  entries := trace.entries ++ (targets.mapIdx fun place target =>
    { seq := trace.size + place, element := target.text, kind := .port
      output := some value }).toArray

theorem Trace.received_nil (trace : Trace) (value : Value) : trace.received [] value = trace := by
  simp [Trace.received]

theorem Trace.received_concat (trace : Trace) (targets : List PortRef) (target : PortRef)
    (value : Value) :
    trace.received (targets ++ [target]) value =
      (trace.received targets value).record target.text .port none (some value) := by
  simp [Trace.received, Trace.record, Trace.push, Trace.size]

/-- A grid whose line is passed on to two districts with one meter. The meter has two ports of the
same name, of which the first one counts. -/
def grid : Model where
  name := "grid"
  components := .ofList [
    ("grid", {
      name := "grid"
      ports := [⟨"line", .input, "grid", .integer, none⟩]
      subcomponents := ["north", "south"]
      delegations := [⟨"line", ⟨"south", "line"⟩⟩, ⟨"line", ⟨"north", "line"⟩⟩] }),
    ("north", {
      name := "north"
      ports := [⟨"line", .input, "north", .integer, none⟩]
      subcomponents := ["meter"]
      delegations := [⟨"line", ⟨"meter", "line"⟩⟩] }),
    ("south", {
      name := "south"
      ports := [⟨"line", .input, "south", .integer, none⟩]
      subcomponents := ["meter"]
      delegations := [⟨"line", ⟨"meter", "line"⟩⟩] }),
    ("meter", {
      name := "meter"
      ports := [⟨"line", .both, "meter", .integer, none⟩,
        ⟨"line", .output, "meter", .integer, none⟩] })]

namespace Simulation

/-- Landing a value on ports changes the ports, their entries in the states, the trace and the
wake-ups, and nothing else. -/
theorem exists_lands_eq (sim : Simulation) (value : Value) (targets : List PortRef) :
    ∃ wakeups, targets.foldl (fun sim target => sim.land value target) sim =
      { sim with
        model := sim.model.receiving targets value
        trace := sim.trace.received targets value
        wakeups } := by
  induction targets using List.reverseRecOn with
  | nil => exact ⟨sim.wakeups, by rw [Model.receiving_nil, Trace.received_nil]; rfl⟩
  | append_singleton targets target ih =>
    obtain ⟨wakeups, heq⟩ := ih
    rw [List.foldl_concat, heq, Model.receiving_concat, Trace.received_concat]
    unfold land
    dsimp only
    split
    · exact ⟨_, rfl⟩
    · exact ⟨_, rfl⟩

/-- A port receives what it and all ports behind it accept. They are met in preorder, and the first
fault met so is the one that is reported, with nothing changed. Else exactly the ports met take the
value, the trace has one more entry for each time that a port was met, in this order, and apart from
the wake-ups nothing else has changed. -/
theorem receive_in_preorder (sim : Simulation) (port : PortRef) (value : Value) :
    sim.model.receiveTargets sim.limit port value = sim.model.reachFrom sim.limit value 0 port ∧
    (∀ fault, sim.model.reachFrom sim.limit value 0 port = .error fault →
      sim.receive port value = (.error fault, sim)) ∧
    ∀ targets, sim.model.reachFrom sim.limit value 0 port = .ok targets →
      ∃ wakeups, sim.receive port value = (.ok (), { sim with
        model := sim.model.receiving targets value
        trace := sim.trace.received targets value
        wakeups }) := by
  have htargets := sim.model.receiveTargets_eq sim.limit port value
  refine ⟨htargets, fun fault hreach => ?_, fun targets hreach => ?_⟩
  · rw [receive, htargets, hreach]
  · obtain ⟨wakeups, hlands⟩ := exists_lands_eq sim value targets
    refine ⟨wakeups, ?_⟩
    rw [receive, htargets, hreach]
    exact congrArg (Prod.mk _) hlands

/-- The meter is met twice, once behind each district; with a limit of one hop it is too far away. -/
theorem receive_in_preorder_grid :
    (∃ wakeups, (new grid {}).receive ⟨"grid", "line"⟩ (.int 3) = (.ok (), { new grid {} with
      model := grid.receiving [⟨"grid", "line"⟩, ⟨"south", "line"⟩, ⟨"meter", "line"⟩,
        ⟨"north", "line"⟩, ⟨"meter", "line"⟩] (.int 3)
      trace := ({} : Trace).received [⟨"grid", "line"⟩, ⟨"south", "line"⟩, ⟨"meter", "line"⟩,
        ⟨"north", "line"⟩, ⟨"meter", "line"⟩] (.int 3)
      wakeups })) ∧
    (new grid { maxCascadeDepth := 1 }).receive ⟨"grid", "line"⟩ (.int 3) =
      (.error (.cascadeLimitExceeded 1), new grid { maxCascadeDepth := 1 }) := by
  have hmet : grid.reachFrom (new grid {}).limit (.int 3) 0 ⟨"grid", "line"⟩ =
      .ok [⟨"grid", "line"⟩, ⟨"south", "line"⟩, ⟨"meter", "line"⟩, ⟨"north", "line"⟩,
        ⟨"meter", "line"⟩] := by
    decide +kernel
  have hfar : grid.reachFrom (new grid { maxCascadeDepth := 1 }).limit (.int 3) 0 ⟨"grid", "line"⟩ =
      .error (.cascadeLimitExceeded 1) := by
    decide +kernel
  constructor
  · exact (receive_in_preorder (new grid {}) _ _).2.2 _ hmet
  · exact (receive_in_preorder (new grid { maxCascadeDepth := 1 }) _ _).2.1 _ hfar

end Simulation
end Archflow
