import Archflow.Proofs.Ports

/-!
Replay of the trace. Every value that arrives at a port is on record under the qualified name of the
port, and nothing else is on record that way. So the trace tells for every port that only receives
which value it holds (`trace_replays_inputs`), if qualified names identify ports.
-/
namespace Archflow

namespace PortRef

/-- A qualified name identifies a port whose own name has no dot. -/
theorem text_injective {ref other : PortRef} (href : '.' ∉ ref.port.toList)
    (hother : '.' ∉ other.port.toList) (h : ref.text = other.text) : ref = other := by
  have hparts := splitAtLastDot_text href
  rw [h, splitAtLastDot_text hother] at hparts
  cases ref
  cases other
  simp only [Option.some.injEq, Prod.mk.injEq, String.toList_inj] at hparts
  rw [hparts.1, hparts.2]

end PortRef

namespace Trace

def Entry.isArrival (entry : Entry) (name : String) : Bool :=
  entry.kind == .port && entry.element == name && !entry.isFailure

def arrivals (trace : Trace) (name : String) : List Entry :=
  trace.entries.toList.filter (·.isArrival name)

theorem arrivals_push (trace : Trace) (element : String) (kind : StepKind)
    (input output : Option Value) (fault : Option Fault) (name : String) :
    (trace.push element kind input output fault).arrivals name =
      if kind = .port ∧ element = name ∧ fault = none then
        trace.arrivals name ++ [⟨trace.entries.size, element, kind, input, output, fault⟩]
      else trace.arrivals name := by
  unfold arrivals
  rw [entries_push, List.filter_append]
  by_cases h : kind = .port ∧ element = name ∧ fault = none
  · obtain ⟨rfl, rfl, rfl⟩ := h
    simp [Entry.isArrival, Entry.isFailure]
  · have hnone : Entry.isArrival ⟨trace.entries.size, element, kind, input, output, fault⟩ name =
        false := by
      simp only [Entry.isArrival, Entry.isFailure]
      cases fault <;> simp_all
    simp [hnone, h]

end Trace
namespace Model

/-- Qualified names identify ports: their own names have no dots and are distinct within each
component. -/
structure Addressable (model : Model) : Prop where
  undotted : ∀ owner component, model.components.get? owner = some component →
    ∀ port ∈ component.ports, '.' ∉ port.name.toList
  distinct : ∀ owner component, model.components.get? owner = some component →
    (component.ports.map Port.name).Nodup

theorem Addressable.congr {model other : Model} (h : model.Addressable)
    (houtline : other.outline = model.outline) : other.Addressable := by
  constructor
  · intro owner component hfound port hmem
    obtain ⟨found, hmodel, hports⟩ := portNames_of_outline houtline hfound
    have hname : port.name ∈ found.ports.map Port.name := hports ▸ List.mem_map_of_mem hmem
    obtain ⟨same, hsame, heq⟩ := List.mem_map.1 hname
    exact heq ▸ h.undotted owner found hmodel same hsame
  · intro owner component hfound
    obtain ⟨found, hmodel, hports⟩ := portNames_of_outline houtline hfound
    exact hports ▸ h.distinct owner found hmodel

theorem Addressable.undotted_port {model : Model} (h : model.Addressable) {ref : PortRef} {port : Port}
    (hport : model.port? ref = some port) : '.' ∉ ref.port.toList := by
  obtain ⟨component, hcomponent, hmem, hname⟩ := exists_of_port? hport
  rw [← hname]
  exact h.undotted _ _ hcomponent port hmem

end Model

namespace Simulation

/-! Nothing but an arrival is recorded as one. -/

/-- A value is only placed on a port that cannot receive, and no record besides arrivals says that
one has come. -/
def Event.Faithful (sim : Simulation) : Event → Prop
  | .place port _ => ∃ resolved, sim.model.port? port = some resolved ∧
      resolved.direction.canReceive = false
  | .record _ kind _ _ => kind ≠ .port
  | _ => True

theorem Event.faithful_of_isCarriage {event : Event} (h : event.isCarriage = true)
    (sim : Simulation) : event.Faithful sim := by
  cases event with
  | place => cases h
  | record element kind input output =>
    rintro rfl
    cases h
  | _ => trivial

section
variable {sources : Sources} {sim last : Simulation} {history : List Moment}

theorem faithful_sendAlong {chain : List PortRef} {value : Value} :
    ∀ moment ∈ sim.sendAlongHistory chain value, moment.event.Faithful moment.sim := by
  intro moment hmem
  rcases List.mem_append.1 hmem with hwrite | htransmit
  · obtain ⟨_, _, hevent⟩ := event_of_writeHistory hwrite
    rw [hevent]
    trivial
  · rcases event_of_transmitAllHistory htransmit with ⟨_, _, hevent⟩ | hcarriage
    · rw [hevent]
      trivial
    · exact Event.faithful_of_isCarriage hcarriage _

theorem Episode.faithful (episode : Episode sources sim history last) :
    ∀ moment ∈ history, moment.event.Faithful moment.sim := by
  cases episode with
  | @note event quiet =>
    refine List.forall_mem_singleton.2 ?_
    cases event with
    | place => cases quiet
    | record element kind input output => simpa [Event.isQuiet, Event.Faithful] using quiet
    | _ => trivial
  | seed => exact List.forall_mem_singleton.2 trivial
  | place injected surface resolves closed fits =>
    exact List.forall_mem_singleton.2 ⟨_, Model.resolve_eq_ok_iff.1 resolves, closed⟩
  | arrive given surface reaches =>
    intro moment hmem
    obtain ⟨_, _, hevent⟩ := event_of_landHistory hmem
    rw [hevent]
    trivial
  | propagate surface live linked held =>
    intro moment hmem
    rcases event_of_transmitHistory hmem with hevent | hcarriage
    · rw [hevent]
      trivial
    · exact Event.faithful_of_isCarriage hcarriage _
  | send given surface passes => exact faithful_sendAlong
  | fire =>
    refine List.forall_mem_cons.2 ⟨?_, List.forall_mem_cons.2 ⟨trivial, faithful_sendAlong⟩⟩
    intro hkind
    cases hkind

theorem Leads.and {admits further : Simulation → Event → Prop} (leads : Leads admits sim history last)
    (h : ∀ moment ∈ history, further moment.sim moment.event) :
    Leads (fun sim event => admits sim event ∧ further sim event) sim history last := by
  induction leads with
  | nil => exact .nil _
  | cons admitted _ ih =>
    obtain ⟨hfirst, hrest⟩ := List.forall_mem_cons.1 h
    exact .cons ⟨admitted, hfirst⟩ (ih hrest)

theorem Episodes.faithful (episodes : Episodes sources sim history last) :
    ∀ moment ∈ history, moment.event.Faithful moment.sim := by
  induction episodes with
  | nil => simp
  | cons head _ ih => exact List.forall_mem_append.2 ⟨head.faithful, ih⟩

end

/-! What the trace tells about ports. -/

/-- The value that a trace tells of: that of the last arrival, else the one to begin with. -/
def replay (trace : Trace) (initial : Option Value) (ref : PortRef) : Option Value :=
  match (trace.arrivals ref.text).getLast? with
  | some entry => entry.output
  | none => initial

/-- The trace is faithful to the ports of a simulation that began with the model. -/
structure Replayed (model : Model) (sim : Simulation) : Prop where
  /-- Arrivals are at ports that can receive. -/
  inward : ∀ name, ∀ entry ∈ sim.trace.arrivals name,
    ∃ ref port, name = ref.text ∧ sim.model.port? ref = some port ∧ port.direction.canReceive = true
  /-- Ports that only receive hold what the trace tells. -/
  held : ∀ ref port, sim.model.port? ref = some port → port.direction = .input →
    port.value = replay sim.trace ((model.port? ref).bind Port.value) ref

theorem trace_land (sim : Simulation) (value : Value) (port : PortRef) :
    (sim.land value port).trace = sim.trace.record port.text .port none (some value) := by
  unfold land
  dsimp only
  split <;> rfl

theorem arrivals_effect {event : Event} {sim : Simulation} (hfaithful : event.Faithful sim)
    (hland : ∀ port value, event ≠ .land port value) (name : String) :
    (event.effect sim).trace.arrivals name = sim.trace.arrivals name := by
  cases event with
  | land port value => exact absurd rfl (hland port value)
  | record element kind input output =>
    have hkind : kind ≠ .port := hfaithful
    exact (Trace.arrivals_push ..).trans (if_neg fun h => hkind h.1)
  | fail element kind input fault =>
    unfold Event.effect fail
    dsimp only
    split
    · exact (Trace.arrivals_push ..).trans (if_neg fun h => nomatch h.2.2)
    · exact (Trace.arrivals_push ..).trans (if_neg fun h => nomatch h.2.2)
  | halt fault => exact (Trace.arrivals_push ..).trans (if_neg fun h => nomatch h.2.2)
  | transmit index value =>
    unfold Event.effect
    dsimp only
    split <;> rfl
  | _ => rfl

/-- An event that lets nothing land leaves ports that only receive as they are. -/
theorem port?_effect_input {event : Event} {sim : Simulation} (hchecked : event.Checked sim)
    (hfaithful : event.Faithful sim) (hland : ∀ port value, event ≠ .land port value)
    {ref : PortRef} {port : Port} (hport : (event.effect sim).model.port? ref = some port)
    (hinput : port.direction = .input) : sim.model.port? ref = some port := by
  rw [port?_effect] at hport
  cases hfilled : event.filled? with
  | none =>
    rw [hfilled] at hport
    exact hport
  | some filled =>
    obtain ⟨target, value⟩ := filled
    simp only [hfilled] at hport
    by_cases href : ref = target
    · -- The port that takes the value cannot be one that only receives.
      subst href
      rw [if_pos rfl] at hport
      obtain ⟨old, hold, rfl⟩ := Option.map_eq_some_iff.1 hport
      cases event with
      | land other landed => exact absurd rfl (hland other landed)
      | write other written =>
        cases hfilled
        obtain ⟨found, hfound, hsend⟩ := Model.port?_of_checkSend hchecked
        cases hold.symm.trans hfound
        simp [Direction.canSend, show old.direction = .input from hinput] at hsend
      | place other placed =>
        cases hfilled
        obtain ⟨found, hfound, hclosed⟩ := hfaithful
        cases hold.symm.trans hfound
        simp [Direction.canReceive, show old.direction = .input from hinput] at hclosed
      | _ => cases hfilled
    · rw [if_neg href] at hport
      exact hport

namespace Replayed

variable {model : Model} {config : Config} {sim last : Simulation} {history : List Moment}

theorem new (model : Model) (config : Config) : Replayed model (.new model config) := by
  constructor
  · intro name entry hmem
    cases hmem
  · intro ref port hport _
    have hmodel : model.port? ref = some port := hport
    simp [replay, Trace.arrivals, Simulation.new, hmodel]

theorem inward_effect (h : Replayed model sim) (event : Event) (name : String) (entry : Trace.Entry)
    (hmem : entry ∈ sim.trace.arrivals name) :
    ∃ ref port, name = ref.text ∧ (event.effect sim).model.port? ref = some port ∧
      port.direction.canReceive = true := by
  obtain ⟨ref, port, hname, hport, hreceive⟩ := h.inward name entry hmem
  have hdirection := (Alike.effect event sim).direction_eq ref
  rw [hport] at hdirection
  obtain ⟨next, hnext, hsame⟩ := Option.map_eq_some_iff.1 hdirection
  exact ⟨ref, next, hname, hnext, hsame ▸ hreceive⟩

theorem silent (h : Replayed model sim) {event : Event} (hchecked : event.Checked sim)
    (hfaithful : event.Faithful sim) (hland : ∀ port value, event ≠ .land port value) :
    Replayed model (event.effect sim) := by
  have harrivals := arrivals_effect hfaithful hland
  constructor
  · intro name entry hmem
    rw [harrivals] at hmem
    exact h.inward_effect event name entry hmem
  · intro ref port hport hinput
    have hsame := port?_effect_input hchecked hfaithful hland hport hinput
    rw [h.held ref port hsame hinput]
    simp only [replay, harrivals]

theorem land (h : Replayed model sim) (hnames : sim.model.Addressable) {target : PortRef}
    {value : Value} (hchecked : sim.model.checkReceive target value = .ok ()) :
    Replayed model ((Event.land target value).effect sim) := by
  obtain ⟨found, hfound, hreceive⟩ := Model.port?_of_checkReceive hchecked
  have hport (ref : PortRef) := port?_effect (.land target value) sim ref
  have harrivals (name : String) : ((Event.land target value).effect sim).trace.arrivals name =
      if target.text = name then
        sim.trace.arrivals name ++
          [⟨sim.trace.entries.size, target.text, .port, none, some value, none⟩]
      else sim.trace.arrivals name := by
    change (sim.land value target).trace.arrivals name = _
    rw [trace_land, Trace.record, Trace.arrivals_push]
    simp
  constructor
  · intro name entry hmem
    rw [harrivals] at hmem
    split at hmem
    · next htext =>
      refine ⟨target, found.holding value, htext.symm, ?_, hreceive⟩
      rw [hport]
      simp [Event.filled?, hfound]
    · exact h.inward_effect _ name entry hmem
  · intro ref port hnext hinput
    rw [hport] at hnext
    simp only [Event.filled?] at hnext
    by_cases href : ref = target
    · subst href
      rw [if_pos rfl, hfound] at hnext
      cases hnext
      simp [replay, harrivals]
    · rw [if_neg href] at hnext
      have htext : target.text ≠ ref.text := by
        intro heq
        exact href (PortRef.text_injective (hnames.undotted_port hfound)
          (hnames.undotted_port hnext) heq).symm
      rw [h.held ref port hnext hinput]
      simp only [replay, harrivals, if_neg htext]

theorem effect (h : Replayed model sim) (hnames : sim.model.Addressable) {event : Event}
    (hchecked : event.Checked sim) (hfaithful : event.Faithful sim) :
    Replayed model (event.effect sim) := by
  cases event with
  | land port value => exact h.land hnames hchecked
  | _ => exact h.silent hchecked hfaithful nofun

theorem episodes {sources : Sources} (hnames : model.Addressable)
    (halike : Alike (.new model config) sim) (episodes : Episodes sources sim history last)
    (h : Replayed model sim) : Replayed model last := by
  have hleads := episodes.leads.and episodes.faithful
  have hstep (sim : Simulation) (event : Event) (hevent : event.Checked sim ∧ event.Faithful sim)
      (hsim : Alike (.new model config) sim ∧ Replayed model sim) :
      Alike (.new model config) (event.effect sim) ∧ Replayed model (event.effect sim) :=
    ⟨hsim.1.trans (.effect event sim),
      hsim.2.effect (hnames.congr hsim.1.outline) hevent.1 hevent.2⟩
  exact (hleads.invariant hstep ⟨halike, h⟩).1.2

end Replayed
end Simulation

namespace Session

open Simulation (Replayed replay)

variable {model : Model} {config : Config} {session : Session}

theorem Resting.replayed (hresting : Resting model config session) (hnames : model.Addressable)
    (h : Replayed model session.simulation) (call : Call) :
    Replayed model (session.perform call).simulation := by
  have hstart : Replayed model (session.start call) := by
    cases call with
    | run =>
      have hmodel := hresting.model_eq
      subst hmodel
      exact .new session.model session.config
    | setInputs inputs => exact h
    | sendToPort qualified value => exact h
  exact .episodes hnames (hresting.begins call).1 (hresting.episodes call) hstart

theorem replayed_performAll (h : load model config = .ok session) (hnames : model.Addressable)
    (calls : List Call) : Replayed model (session.performAll calls).simulation := by
  have hloaded : Replayed model session.simulation := by
    obtain ⟨_, _, hsession⟩ := exists_of_bind_ok h
    cases hsession
    exact .new model config
  have hstep := List.foldlRecOn (motive := fun session : Session =>
    Resting model config session ∧ Replayed model session.simulation) calls perform
    ⟨Resting.of_load h, hloaded⟩ fun session hsession call _ =>
      ⟨(hsession.1.call call).1, hsession.1.replayed hnames hsession.2 call⟩
  exact hstep.2

/-- What the trace of a simulation that began with the model tells about all ports. -/
structure Replays (model : Model) (sim : Simulation) : Prop where
  /-- No arrival is on record at a port that only sends. -/
  unnamed : ∀ owner component, sim.model.components.get? owner = some component →
    ∀ port ∈ component.ports, port.direction = .output →
      sim.trace.arrivals (PortRef.text ⟨owner, port.name⟩) = []
  /-- A port that only receives holds the value of the last arrival on record, or the value that it
  has in the model if there is none. -/
  held : ∀ owner component, sim.model.components.get? owner = some component →
    ∀ port ∈ component.ports, port.direction = .input →
      port.value = match (sim.trace.arrivals (PortRef.text ⟨owner, port.name⟩)).getLast? with
        | some entry => entry.output
        | none => (model.port? ⟨owner, port.name⟩).bind Port.value

/-- In a session of any model that can be loaded and whose qualified names identify ports, after any
calls, the trace replays the ports that only receive. -/
theorem trace_replays_inputs (h : load model config = .ok session) (hnames : model.Addressable)
    (calls : List Call) : Replays model (session.performAll calls).simulation := by
  have hresting := (Resting.of_load h).performAll calls
  have hreplayed := replayed_performAll h hnames calls
  have haddressable := hnames.congr hresting.steady.alike.outline
  have hport (owner : String) (component : Component)
      (hcomponent : (session.performAll calls).simulation.model.components.get? owner = some component)
      (port : Port) (hmem : port ∈ component.ports) :
      (session.performAll calls).simulation.model.port? ⟨owner, port.name⟩ = some port := by
    have hfound := Component.port?_of_mem (haddressable.distinct owner component hcomponent) hmem
    simp only [Model.port?, hcomponent, Option.bind_some, hfound]
  constructor
  · intro owner component hcomponent port hmem houtput
    rw [List.eq_nil_iff_forall_not_mem]
    intro entry harrival
    obtain ⟨ref, found, htext, hfound, hreceive⟩ := hreplayed.inward _ entry harrival
    have hlisted := hport owner component hcomponent port hmem
    have href := PortRef.text_injective (haddressable.undotted_port hlisted)
      (haddressable.undotted_port hfound) htext
    rw [← href, hlisted] at hfound
    cases hfound
    simp [houtput, Direction.canReceive] at hreceive
  · intro owner component hcomponent port hmem hinput
    exact hreplayed.held _ port (hport owner component hcomponent port hmem) hinput

theorem addressable_relay : relay.Addressable := by
  have hports : ∀ entry ∈ relay.components.toList,
      (∀ port ∈ entry.2.ports, '.' ∉ port.name.toList) ∧ (entry.2.ports.map Port.name).Nodup := by
    decide +kernel
  exact ⟨fun _ _ hfound => (hports _ (Entries.mem_of_lookup hfound)).1,
    fun _ _ hfound => (hports _ (Entries.mem_of_lookup hfound)).2⟩

theorem trace_replays_inputs_relay :
    let loaded : Session := { model := relay, inputs := {}, config := {}, simulation := .new relay {} }
    let after := loaded.performAll [.run, .sendToPort "source.out" (.bool false)]
    load relay {} = .ok loaded ∧ relay.Addressable ∧
      (after.simulation.trace.arrivals "sink.in").map Trace.Entry.output =
        [some (.bool true), some (.bool false)] ∧
      Replays relay after.simulation := by
  intro loaded after
  refine ⟨rfl, addressable_relay, by decide +kernel, ?_⟩
  exact trace_replays_inputs (show load relay {} = .ok loaded from rfl) addressable_relay
    [.run, .sendToPort "source.out" (.bool false)]

end Session
end Archflow
