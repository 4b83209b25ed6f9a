import Archflow.Proofs.Construction
import Archflow.Proofs.Contract
import Archflow.Proofs.Replay

/-!
Ports that only receive, and the entries of their names in the state, which is what activities read.
Values that arrive are put in both places. So the entry tells what the port holds, unless an activity
has entered a result of its own under the name of the port since, or the states have not been seeded
yet (`Account`).
-/
namespace Archflow

namespace Model

def stateAt? (model : Model) (ref : PortRef) : Option Value :=
  (model.components.get? ref.component).bind (·.state.get? ref.port)

def PortsDistinct (model : Model) : Prop :=
  ∀ owner component, model.components.get? owner = some component →
    (component.ports.map Port.name).Nodup

theorem PortsDistinct.congr {model other : Model} (h : model.PortsDistinct)
    (houtline : other.outline = model.outline) : other.PortsDistinct := by
  intro owner component hfound
  obtain ⟨found, hmodel, hports⟩ := portNames_of_outline houtline hfound
  exact hports ▸ h owner found hmodel

section
variable (model : Model)

@[simp] theorem stateAt?_setPort (port ref : PortRef) (value : Value) :
    (model.setPort port value).stateAt? ref = model.stateAt? ref := by
  simp only [stateAt?, setPort, updateComponent, Table.get?_modify]
  split
  · cases model.components.get? ref.component <;> rfl
  · rfl

theorem stateAt?_setState (owner key : String) (value : Value) (ref : PortRef) :
    (model.setState owner key value).stateAt? ref =
      if ref = ⟨owner, key⟩ then (model.components.get? owner).map fun _ => value
      else model.stateAt? ref := by
  obtain ⟨component, port⟩ := ref
  simp only [stateAt?, setState, updateComponent, Table.get?_modify, PortRef.mk.injEq]
  by_cases hcomponent : component = owner
  · subst hcomponent
    cases model.components.get? component with
    | none => simp
    | some found => simp [Component.setState]
  · simp [hcomponent]

/-- Where there is a port, there is a state to make an entry in. -/
theorem stateAt?_setState_self {model : Model} {ref : PortRef} {port : Port}
    (hport : model.port? ref = some port) (value : Value) :
    (model.setState ref.component ref.port value).stateAt? ref = some value := by
  obtain ⟨component, hcomponent, -⟩ := exists_of_port? hport
  rw [stateAt?_setState, if_pos rfl, hcomponent, Option.map_some]

end

/-! Models that have just been built. -/

def Stateless (model : Model) : Prop :=
  ∀ owner component, model.components.get? owner = some component → component.state = ∅

theorem Stateless.insert {model next : Model} (h : model.Stateless) {key : String}
    {component : Component} (hstate : component.state = ∅)
    (hnext : next.components = model.components.insert key component) : next.Stateless := by
  intro owner found hfound
  rw [hnext, Table.get?_insert] at hfound
  split at hfound
  · cases hfound
    exact hstate
  · exact h owner found hfound

theorem Revision.state_eq {model : Model} {key : String} {component revised : Component}
    {declaration : Declaration} (revision : Revision model key component declaration revised) :
    revised.state = component.state := by
  cases revision <;> rfl

theorem Stateless.declare {model next : Model} {declaration : Declaration} (h : model.Stateless)
    (hdeclared : model.declare declaration = (.ok (), next)) : next.Stateless := by
  cases howner : declaration.owner? with
  | some key =>
    obtain ⟨component, revised, hfound, hrevision, rfl⟩ := revision_of_declare howner hdeclared
    exact h.insert (hrevision.state_eq.trans (h key component hfound)) rfl
  | none =>
    rcases components_of_declare howner hdeclared with hsame | ⟨name, hnew⟩
    · intro owner component hfound
      exact h owner component (hsame ▸ hfound)
    · exact h.insert rfl hnew

theorem stateless_ofDeclarations (name : String) (declarations : List Declaration) :
    (ofDeclarations name declarations).Stateless := by
  refine ofDeclarations_induction ?_ (fun _ _ _ h => h.declare) declarations
  intro owner component hfound
  cases hfound

end Model

/-- The entry under a name tells the value, so an activity that reads the port of that name need not
wait for it, and is given the value. -/
structure Component.Mirrors (component : Component) (name : String) (value : Value) : Prop where
  entry : component.state.get? name = some value
  arrived : component.state.contains name = true
  bound : ∀ (activity : Activity) (symbols : SymbolTable) (param : Param),
    activity.portFor? component param.name = some name →
      activity.bindInput component symbols param = value

theorem Component.mirrors_of_entry {component : Component} {name : String} {value : Value}
    (h : component.state.get? name = some value) : component.Mirrors name value := by
  refine ⟨h, ?_, ?_⟩
  · rw [Table.contains, h, Option.isSome_some]
  · intro activity symbols param hport
    simp [Activity.bindInput, hport, h]

namespace Simulation

/-- The event makes an entry under the name of the port, or may make one. -/
def Event.Enters (ref : PortRef) : Event → Prop
  | .land port _ | .place port _ => port = ref
  | .store component key _ => (⟨component, key⟩ : PortRef) = ref
  | .seed => True
  | _ => False

def Event.Earns (model : Model) (sim : Simulation) (event : Event) : Prop :=
  ∀ owner key result, event = .store owner key result →
    ∃ component activity, component.name = owner ∧ Earned model sim component activity key result

/-- How the entry of a port that holds the value has come about. -/
inductive Account (model : Model) (past : List Moment) (sim : Simulation) (ref : PortRef)
    (value : Value) : Prop
  | mirrored (entry : sim.model.stateAt? ref = some value)
  /-- An activity has entered its result since the value has come. -/
  | overwritten {earlier later : List Moment} {stored : Simulation} {result : Value}
      {component : Component} {activity : Activity}
      (since : past = earlier ++ ⟨stored, .store ref.component ref.port result⟩ :: later)
      (owner : component.name = ref.component)
      (earned : Earned model stored component activity ref.port result)
      (last : ∀ moment ∈ later, ¬ moment.event.Enters ref)
      (entry : sim.model.stateAt? ref = some result)
  /-- The value is the one to begin with, and nothing has been entered yet. -/
  | unseeded (untouched : ∀ moment ∈ past, ¬ moment.event.Enters ref)
      (entry : sim.model.stateAt? ref = none) (initial : (model.port? ref).bind Port.value = some value)

/-- There is an account for every port that only receives and holds a value. -/
def Accounted (model : Model) (past : List Moment) (sim : Simulation) : Prop :=
  ∀ ref port value, sim.model.port? ref = some port → port.direction = .input →
    port.value = some value → Account model past sim ref value

section
variable {model : Model} {past : List Moment} {sim : Simulation} {event : Event} {ref : PortRef}
  {port : Port} {value : Value}

theorem model_land (sim : Simulation) (value : Value) (port : PortRef) :
    (sim.land value port).model =
      (sim.model.setPort port value).setState port.component port.port value := by
  unfold land
  dsimp only
  split <;> rfl

/-- The names of the ports that hold values are among the names of all ports. -/
theorem names_of_values_sublist (ports : List Port) :
    ((ports.filterMap fun port => port.value.map (port.name, ·)).map Prod.fst).Sublist
      (ports.map Port.name) := by
  induction ports with
  | nil => exact .slnil
  | cons port rest ih =>
    cases hvalue : port.value with
    | none =>
      rw [List.filterMap_cons_none (by rw [hvalue]; rfl), List.map_cons]
      exact ih.cons _
    | some value =>
      rw [List.filterMap_cons_some (by rw [hvalue]; rfl), List.map_cons, List.map_cons]
      exact ih.cons_cons _

/-- With distinct names, seeding enters the value of every port. -/
theorem stateAt?_seed (hdistinct : sim.model.PortsDistinct) (hport : sim.model.port? ref = some port)
    (hvalue : port.value = some value) : sim.seedInitialValues.model.stateAt? ref = some value := by
  obtain ⟨component, hcomponent, hmem, hname⟩ := Model.exists_of_port? hport
  have hkeys := (names_of_values_sublist component.ports).nodup (hdistinct _ component hcomponent)
  have hentered : (Table.ofList (component.ports.filterMap fun port =>
      port.value.map (port.name, ·))).get? ref.port = some value := by
    refine (Table.get?_ofList_eq_some_iff hkeys).2 (List.mem_filterMap.2 ⟨port, hmem, ?_⟩)
    rw [hvalue, ← hname, Option.map_some]
  simp only [Model.stateAt?, seedInitialValues, Table.get?_map, hcomponent, Option.map_some,
    Option.bind_some, Table.get?_insertAll, hentered, Option.some_or]

theorem stateAt?_effect_of_not_enters (h : ¬ event.Enters ref) (sim : Simulation) :
    (event.effect sim).model.stateAt? ref = sim.model.stateAt? ref := by
  cases event with
  | land port value =>
    change (sim.land value port).model.stateAt? ref = _
    rw [model_land, Model.stateAt?_setState, if_neg (Ne.symm h), Model.stateAt?_setPort]
  | place port value =>
    change Model.stateAt? (Model.setState _ _ _ _) ref = _
    rw [Model.stateAt?_setState, if_neg (Ne.symm h), Model.stateAt?_setPort]
  | store component key value =>
    change Model.stateAt? (Model.setState _ _ _ _) ref = _
    rw [Model.stateAt?_setState, if_neg (Ne.symm h)]
  | seed => exact absurd trivial h
  | write port value => exact Model.stateAt?_setPort ..
  | _ => rw [model_effect rfl]

/-- Only an event that enters the value changes a port that only receives. -/
theorem port?_effect_of_not_enters (hchecked : event.Checked sim) (hfaithful : event.Faithful sim)
    (hother : ¬ event.Enters ref) (hport : (event.effect sim).model.port? ref = some port)
    (hinput : port.direction = .input) : sim.model.port? ref = some port := by
  cases event with
  | land target value =>
    rw [port?_effect] at hport
    simpa only [Event.filled?, if_neg (Ne.symm hother)] using hport
  | _ => exact port?_effect_input hchecked hfaithful (by simp) hport hinput

theorem Account.keep (h : Account model past sim ref value) (hother : ¬ event.Enters ref) :
    Account model (past ++ [⟨sim, event⟩]) (event.effect sim) ref value := by
  have hentry := stateAt?_effect_of_not_enters hother sim
  cases h with
  | mirrored entry => exact .mirrored (hentry.trans entry)
  | @overwritten earlier later stored result component activity since owner earned last entry =>
    have hpast : past ++ [⟨sim, event⟩] = earlier ++
        ⟨stored, .store ref.component ref.port result⟩ :: (later ++ [⟨sim, event⟩]) := by
      rw [since, List.append_assoc, List.cons_append]
    refine .overwritten hpast owner earned ?_ (hentry.trans entry)
    exact List.forall_mem_append.2 ⟨last, List.forall_mem_singleton.2 hother⟩
  | unseeded untouched entry initial =>
    refine .unseeded ?_ (hentry.trans entry) initial
    exact List.forall_mem_append.2 ⟨untouched, List.forall_mem_singleton.2 hother⟩

theorem Account.enter (hdistinct : sim.model.PortsDistinct) (hchecked : event.Checked sim)
    (hfaithful : event.Faithful sim) (hearns : event.Earns model sim) (henters : event.Enters ref)
    (hport : (event.effect sim).model.port? ref = some port) (hinput : port.direction = .input)
    (hvalue : port.value = some value) :
    Account model (past ++ [⟨sim, event⟩]) (event.effect sim) ref value := by
  have hfilled := port?_effect event sim ref
  rw [hport] at hfilled
  cases event with
  | land target landed =>
    obtain rfl : target = ref := henters
    obtain ⟨found, hfound, -⟩ := Model.port?_of_checkReceive hchecked
    simp only [Event.filled?, if_true, hfound, Option.map_some, Option.some.injEq] at hfilled
    rw [hfilled, Port.value_holding] at hvalue
    cases hvalue
    have hholds : (sim.model.setPort target value).port? target = some (found.holding value) := by
      rw [Model.port?_setPort, if_pos rfl, hfound, Option.map_some]
    refine .mirrored ?_
    change (sim.land value target).model.stateAt? target = _
    rw [model_land]
    exact Model.stateAt?_setState_self hholds value
  | place target placed =>
    -- a port that only receives is not given values in this way
    obtain rfl : target = ref := henters
    obtain ⟨found, hfound, hclosed⟩ := hfaithful
    simp only [Event.filled?, if_true, hfound, Option.map_some, Option.some.injEq] at hfilled
    have hsame : found.direction = .input := by rw [← hinput, hfilled, Port.holding]
    rw [hsame] at hclosed
    cases hclosed
  | store owner key result =>
    obtain rfl := henters
    obtain ⟨component, activity, howner, hearned⟩ := hearns owner key result rfl
    refine .overwritten rfl howner hearned (by simp) ?_
    exact Model.stateAt?_setState_self hfilled.symm result
  | seed => exact .mirrored (stateAt?_seed hdistinct hfilled.symm hvalue)
  | _ => cases henters

theorem Accounted.effect (h : Accounted model past sim) (hdistinct : sim.model.PortsDistinct)
    (hchecked : event.Checked sim) (hfaithful : event.Faithful sim) (hearns : event.Earns model sim) :
    Accounted model (past ++ [⟨sim, event⟩]) (event.effect sim) := by
  intro ref port value hport hinput hvalue
  by_cases henters : event.Enters ref
  · exact .enter hdistinct hchecked hfaithful hearns henters hport hinput hvalue
  · have hold := port?_effect_of_not_enters hchecked hfaithful henters hport hinput
    exact (h ref port value hold hinput hvalue).keep henters

end

/-! Runs. -/

section
variable {model : Model} {config : Config} {sources : Sources} {sim last : Simulation}
  {past history : List Moment}

/-- What every admitted event preserves when it joins the past holds at the end of a history. -/
theorem Leads.accumulate {admits : Simulation → Event → Prop}
    {holds : List Moment → Simulation → Prop}
    (step : ∀ past sim event, admits sim event → holds past sim →
      holds (past ++ [⟨sim, event⟩]) (event.effect sim))
    (leads : Leads admits sim history last) (h : holds past sim) : holds (past ++ history) last := by
  induction leads generalizing past with
  | nil => simpa using h
  | cons admitted _ ih =>
    have hnext := ih (step _ _ _ admitted h)
    rwa [List.append_assoc] at hnext

theorem Episodes.earns (hnamed : model.Named) (episodes : Episodes sources sim history last)
    (halike : Alike (.new model config) sim) (hidle : sim.wiring.Idle) :
    ∀ moment ∈ history, moment.event.Earns model moment.sim := by
  intro moment hmem owner key result hevent
  obtain ⟨earlier, later, hsplit⟩ := List.append_of_mem hmem
  have hfounded := episodes.founded hnamed halike hidle []
  rw [hsplit] at hfounded
  have hwarranted := hfounded.of_split
  obtain ⟨stored, event⟩ := moment
  obtain rfl : event = .store owner key result := hevent
  cases hwarranted rfl with
  | entered earned => exact ⟨_, _, rfl, earned⟩

theorem accounted_new (hstateless : model.Stateless) (config : Config) :
    Accounted model [] (.new model config) := by
  intro ref port value hport _ hvalue
  have hmodel : model.port? ref = some port := hport
  obtain ⟨component, hcomponent, -⟩ := Model.exists_of_port? hmodel
  refine .unseeded (by simp) ?_ (by rw [hmodel, Option.bind_some, hvalue])
  change model.stateAt? ref = none
  rw [Model.stateAt?, hcomponent, Option.bind_some, hstateless _ component hcomponent]
  rfl

theorem Accounted.episodes (hnamed : model.Named) (hdistinct : model.PortsDistinct)
    (halike : Alike (.new model config) sim) (hidle : sim.wiring.Idle)
    (episodes : Episodes sources sim history last) (h : Accounted model past sim) :
    Accounted model (past ++ history) last := by
  have hleads := (episodes.leads.and episodes.faithful).and (episodes.earns hnamed halike hidle)
  have hstep (past : List Moment) (sim : Simulation) (event : Event)
      (hevent : (event.Checked sim ∧ event.Faithful sim) ∧ event.Earns model sim)
      (hsim : Alike (.new model config) sim ∧ Accounted model past sim) :
      Alike (.new model config) (event.effect sim) ∧
        Accounted model (past ++ [⟨sim, event⟩]) (event.effect sim) :=
    ⟨hsim.1.trans (.effect event sim),
      hsim.2.effect (hdistinct.congr hsim.1.outline) hevent.1.1 hevent.1.2 hevent.2⟩
  exact (hleads.accumulate hstep ⟨halike, h⟩).2

end
end Simulation

namespace Session

open Simulation (Moment Event Account Accounted Earned)

/-- What has happened before in the simulation that a call goes on with. A run starts over. -/
def Call.carriesOn (past : List Moment) : Call → List Moment
  | .run => []
  | _ => past

def pastOf (session : Session) : (past : List Moment) → List Call → List Moment
  | past, [] => past
  | past, call :: rest =>
      (session.perform call).pastOf (call.carriesOn past ++ session.history call) rest

section
variable {model : Model} {config : Config} {session : Session} {past : List Moment}

theorem Resting.accounted (hresting : Resting model config session) (hnamed : model.Named)
    (hdistinct : model.PortsDistinct) (hstateless : model.Stateless)
    (h : Accounted model past session.simulation) (call : Call) :
    Accounted model (call.carriesOn past ++ session.history call) (session.perform call).simulation := by
  have hstart : Accounted model (call.carriesOn past) (session.start call) := by
    cases call with
    | run =>
      obtain ⟨rfl, rfl, -, -⟩ := hresting
      exact Simulation.accounted_new hstateless session.config
    | setInputs inputs => exact h
    | sendToPort qualified value => exact h
  obtain ⟨halike, hidle⟩ := hresting.begins call
  exact hstart.episodes hnamed hdistinct halike hidle (hresting.episodes call)

theorem Resting.accounted_all (hresting : Resting model config session) (hnamed : model.Named)
    (hdistinct : model.PortsDistinct) (hstateless : model.Stateless)
    (h : Accounted model past session.simulation) (calls : List Call) :
    Accounted model (session.pastOf past calls) (session.performAll calls).simulation := by
  induction calls generalizing session past with
  | nil => exact h
  | cons call rest ih =>
    exact ih (hresting.call call).1 (hresting.accounted hnamed hdistinct hstateless h call)

/-- A run seeds the states, and no later call goes back behind that. -/
theorem seed_mem_pastOf {calls : List Call}
    (h : .run ∈ calls ∨ ∃ moment ∈ past, moment.event = .seed) :
    ∃ moment ∈ session.pastOf past calls, moment.event = .seed := by
  induction calls generalizing session past with
  | nil => exact h.resolve_left List.not_mem_nil
  | cons call rest ih =>
    refine ih ?_
    by_cases hrest : .run ∈ rest
    · exact .inl hrest
    refine .inr ?_
    cases call with
    | run =>
      refine ⟨⟨(Simulation.new session.model session.config).reportProblems, .seed⟩, ?_, rfl⟩
      exact List.mem_append_right _ (List.mem_append_right _ List.mem_cons_self)
    | setInputs inputs =>
      obtain ⟨moment, hmem, hseed⟩ := h.resolve_left (by simpa using hrest)
      exact ⟨moment, List.mem_append_left _ hmem, hseed⟩
    | sendToPort qualified value =>
      obtain ⟨moment, hmem, hseed⟩ := h.resolve_left (by simpa using hrest)
      exact ⟨moment, List.mem_append_left _ hmem, hseed⟩

end

/-- In a session of any model that has been built from declarations, after any calls, a port that
only receives and holds a value has it in the state of its component under its own name. There are
two exceptions. An activity of the component whose first output has the name of the port enters its
result there; the result stays until the next value arrives. And the value that a port has to begin
with is entered by the first run, so before that nothing may be there. -/
theorem state_mirrors_inputs {name : String} {declarations : List Declaration} {model : Model}
    (hbuilt : (Model.ofDeclarations name declarations).build = .ok model) {config : Config}
    {session : Session} (hloaded : load model config = .ok session) (calls : List Call)
    {owner : String} {component : Component}
    (hfound : (session.performAll calls).simulation.model.components.get? owner = some component)
    {port : Port} (hmem : port ∈ component.ports) (hinput : port.direction = .input) {value : Value}
    (hvalue : port.value = some value) :
    component.Mirrors port.name value ∨
    (∃ earlier stored result later performer activity,
      session.pastOf [] calls = earlier ++ ⟨stored, .store owner port.name result⟩ :: later ∧
      (∀ moment ∈ later, ¬ moment.event.Enters ⟨owner, port.name⟩) ∧
      performer.name = owner ∧ Earned model stored performer activity port.name result ∧
      component.state.get? port.name = some result) ∨
    (.run ∉ calls ∧ (∀ moment ∈ session.pastOf [] calls, ¬ moment.event.Enters ⟨owner, port.name⟩) ∧
      component.state.get? port.name = none ∧
      (model.port? ⟨owner, port.name⟩).bind Port.value = some value) := by
  obtain ⟨hvalid, hmodel⟩ := Model.build_eq_ok_iff.1 hbuilt
  have hnamed := named_of_load hloaded
  have hdistinct : model.PortsDistinct := by
    intro owner component hfound
    rw [← hmodel] at hfound
    exact ((Model.coherent_ofDeclarations name declarations).components owner component hfound).distinct
  have hstateless : model.Stateless := hmodel ▸ Model.stateless_ofDeclarations name declarations
  have hresting := Resting.of_load hloaded
  have hstart : Accounted model [] session.simulation := by
    obtain ⟨_, _, hsession⟩ := exists_of_bind_ok hloaded
    cases hsession
    exact Simulation.accounted_new hstateless config
  have hnow := hdistinct.congr (hresting.performAll calls).steady.alike.outline
  have hport : (session.performAll calls).simulation.model.port? ⟨owner, port.name⟩ = some port := by
    simpa only [Model.port?, hfound, Option.bind_some] using
      Component.port?_of_mem (hnow owner component hfound) hmem
  have hentry : (session.performAll calls).simulation.model.stateAt? ⟨owner, port.name⟩ =
      component.state.get? port.name := by
    rw [Model.stateAt?, hfound, Option.bind_some]
  have haccounted := hresting.accounted_all hnamed hdistinct hstateless hstart calls
  cases haccounted _ port value hport hinput hvalue with
  | mirrored entry => exact .inl (Component.mirrors_of_entry (hentry.symm.trans entry))
  | overwritten since howner earned last entry =>
    exact .inr (.inl ⟨_, _, _, _, _, _, since, last, howner, earned, hentry.symm.trans entry⟩)
  | unseeded untouched entry initial =>
    refine .inr (.inr ⟨fun hrun => ?_, untouched, hentry.symm.trans entry, initial⟩)
    obtain ⟨moment, hmoment, hseed⟩ := @seed_mem_pastOf session [] calls (.inl hrun)
    exact untouched moment hmoment (by rw [hseed]; trivial)

/-- A counter that adds one to whatever arrives, and keeps the sum under the name of the port. It has
a limit to begin with. -/
def counting : List Declaration := [
  .component "counter",
  .port "counter" "count" .input .integer,
  .port "counter" "limit" .input .integer,
  .initial ⟨"counter", "limit"⟩ (.int 9),
  .executable {
    name := "increment"
    params := [⟨"n", .integer, none⟩]
    returns := .integer
    body := [.ret (.binary "+" (.variable "n") (.const (.int 1)))] },
  .activity {
    name := "advance"
    inputs := [⟨"count", .integer, none⟩]
    outputs := [⟨"count", .integer, none⟩]
    actions := [⟨"add", none⟩] },
  .registration "counter" "advance",
  .allocation (.executable "increment" "add")]

def counter : Session where
  model := .ofDeclarations "counting" counting
  inputs := {}
  config := {}
  simulation := .new (.ofDeclarations "counting" counting) {}

def countOne : List Call := [.setInputs { ports := [("counter.count", .int 1)] }, .run]

/-- The limit is not entered before the first run. In a run that is given a count, the sum is entered
in its place. -/
theorem counter_unmirrored :
    (Model.ofDeclarations "counting" counting).build = .ok counter.model ∧
    load counter.model {} = .ok counter ∧
    ((counter.model.port? ⟨"counter", "limit"⟩).map Port.direction = some .input ∧
      counter.portValue? "counter.limit" = some (.int 9) ∧
      (counter.state? "counter").map (·.get? "limit") = some none) ∧
    ((counter.model.port? ⟨"counter", "count"⟩).map Port.direction = some .input ∧
      (counter.performAll countOne).portValue? "counter.count" = some (.int 1) ∧
      ((counter.performAll countOne).state? "counter").map (·.get? "count") = some (some (.int 2))) := by
  refine ⟨rfl, rfl, ⟨rfl, ?_, ?_⟩, ⟨rfl, ?_, ?_⟩⟩ <;> decide +kernel

/-- What stands in place of the count has been earned by adding one, and nothing has arrived since. -/
theorem counter_overwritten : ∃ component port,
    (counter.performAll countOne).simulation.model.components.get? "counter" = some component ∧
    port ∈ component.ports ∧ port.name = "count" ∧ port.direction = .input ∧
    port.value = some (.int 1) ∧
    ∃ earlier stored later performer activity,
      counter.pastOf [] countOne = earlier ++ ⟨stored, .store "counter" "count" (.int 2)⟩ :: later ∧
      (∀ moment ∈ later, ¬ moment.event.Enters ⟨"counter", "count"⟩) ∧ performer.name = "counter" ∧
      Earned counter.model stored performer activity "count" (.int 2) := by
  have hafter : ((counter.performAll countOne).simulation.model.components.get? "counter").map
      (fun component => (component.state.get? "count",
        (component.port? "count").map fun port => (port.direction, port.value))) =
      some (some (.int 2), some (.input, some (.int 1))) := by decide +kernel
  obtain ⟨component, hfound, hsides⟩ := Option.map_eq_some_iff.1 hafter
  obtain ⟨hstate, hport⟩ := Prod.mk.inj hsides
  obtain ⟨port, hnamed, hpair⟩ := Option.map_eq_some_iff.1 hport
  obtain ⟨hinput, hvalue⟩ := Prod.mk.inj hpair
  have hmem := List.mem_of_find?_eq_some hnamed
  have hname : port.name = "count" := by simpa using List.find?_some hnamed
  refine ⟨component, port, hfound, hmem, hname, hinput, hvalue, ?_⟩
  have hmirrors := @state_mirrors_inputs "counting" counting counter.model rfl {} counter rfl countOne
    _ _ hfound _ hmem hinput _ hvalue
  rcases hmirrors with hmirrors | ⟨earlier, stored, result, later, performer, activity, hpast, hlast,
    howner, hearned, hentry⟩ | ⟨hunrun, _⟩
  · rw [hname] at hmirrors
    cases hmirrors.entry.symm.trans hstate
  · rw [hname] at hpast hlast hearned hentry
    cases hentry.symm.trans hstate
    exact ⟨earlier, stored, later, performer, activity, hpast, hlast, howner, hearned⟩
  · exact absurd (by simp [countOne]) hunrun

end Session
end Archflow
