import Archflow.Proofs.Idle
import Archflow.Proofs.Limit
import Archflow.Proofs.Ports
import Archflow.Protocol.PortTable

/-!
Protocols inside and outside of a simulation. On a component that nothing leads away from, a protocol
does inside a simulation what it does on a table of the component's ports, except that the simulation
refuses values that do not belong to the types of their ports (`run_componentAccess`). So the two are
the same as long as all values that are sent do (`protocol_standalone`).
-/
namespace Archflow

def Component.portTable (component : Component) : Table Port :=
  .ofList (component.ports.map fun port => (port.name, port))

namespace Component

theorem get?_portTable {component : Component} (hdistinct : (component.ports.map Port.name).Nodup)
    (name : String) : component.portTable.get? name = component.port? name := by
  have hkeys : ((component.ports.map fun port => (port.name, port)).map Prod.fst).Nodup := by
    simpa [Function.comp_def] using hdistinct
  apply Option.ext
  intro port
  rw [portTable, Table.get?_ofList_eq_some_iff hkeys]
  constructor
  · intro hmem
    obtain ⟨found, hfound, heq⟩ := List.mem_map.1 hmem
    cases heq
    exact port?_of_mem hdistinct hfound
  · intro hport
    have hname : port.name = name := by simpa using List.find?_some hport
    exact List.mem_map.2 ⟨port, List.mem_of_find?_eq_some hport, by rw [hname]⟩

end Component

namespace Model

def portsOf (model : Model) (name : String) : Table Port :=
  ((model.components.get? name).map Component.portTable).getD ∅

/-- A component with distinctly named ports that nothing leads away from: no link starts at one of
its ports, and no composite delegates to one. -/
structure Detached (model : Model) (name : String) : Prop where
  distinct : ∀ component, model.components.get? name = some component →
    (component.ports.map Port.name).Nodup
  unlinked : ∀ link ∈ (Wiring.ofModel model).links, link.source.component ≠ name
  undelegated : ∀ composite ∈ model.components.items, ∀ delegation ∈ composite.delegations,
    delegation.inner.component ≠ name

def checkValue (model : Model) (name : String) : Protocol.Check := fun port value =>
  match model.port? ⟨name, port⟩ with
  | some port => port.checkPayload model.symbols value
  | none => .ok ()

variable {model other : Model} {name : String}

theorem checkValue_outline : model.outline.checkValue name = model.checkValue name := by
  funext port value
  simp only [checkValue, port?_outline]
  cases model.port? ⟨name, port⟩ <;> rfl

theorem checkValue_congr (h : other.outline = model.outline) :
    other.checkValue name = model.checkValue name := by
  rw [← checkValue_outline, h, checkValue_outline]

theorem get?_portsOf (h : model.Detached name) (hsame : other.outline = model.outline)
    (port : String) : (other.portsOf name).get? port = other.port? ⟨name, port⟩ := by
  have hcomponent := congrArg (fun model : Model => model.components.get? name) hsame
  simp only [outline, Table.get?_map] at hcomponent
  unfold portsOf port?
  cases hother : other.components.get? name with
  | none => rfl
  | some component =>
    rw [hother] at hcomponent
    obtain ⟨original, horiginal, heq⟩ := Option.map_eq_some_iff.1 hcomponent.symm
    have hnames : component.ports.map Port.name = original.ports.map Port.name := by
      have hports := congrArg (fun component : Component => component.ports.map Port.name) heq
      simpa [Component.outline, Function.comp_def, Port.outline] using hports.symm
    apply Component.get?_portTable
    rw [hnames]
    exact h.distinct original horiginal

theorem delegatingOuter?_eq_none (h : model.Detached name) (port : String) :
    model.delegatingOuter? ⟨name, port⟩ = none := by
  rw [delegatingOuter?, List.findSome?_eq_none_iff]
  intro composite hcomposite
  rw [Component.outerFor?, Option.map_eq_none_iff, List.find?_eq_none]
  intro delegation hmem hfound
  have hinner : delegation.inner = ⟨name, port⟩ := by
    simp only [Bool.and_eq_true, beq_iff_eq] at hfound
    exact hfound.1
  exact h.undelegated composite hcomposite delegation hmem (by rw [hinner])

theorem checkSend_eq {port : String} {found : Port} (hfound : model.port? ⟨name, port⟩ = some found)
    (hcan : found.direction.canSend = true) (value : Value) :
    model.checkSend ⟨name, port⟩ value = model.checkValue name port value := by
  have hsend : found.checkSend = .ok () := by simp [Port.checkSend, hcan]
  simp only [checkSend, resolve_eq_ok_iff.2 hfound, checkValue, hfound, bind, Except.bind, hsend]

/-- A port that takes a value is replaced in the table of ports. -/
theorem portsOf_setPort (h : model.Detached name) (hsame : other.outline = model.outline)
    {port : String} {found : Port} (hfound : other.port? ⟨name, port⟩ = some found) (value : Value) :
    (other.setPort ⟨name, port⟩ value).portsOf name =
      (other.portsOf name).insert port (found.holding value) := by
  apply Table.ext_get?
  intro key
  have hset : (other.setPort ⟨name, port⟩ value).outline = model.outline := by
    rw [outline_setPort, hsame]
  rw [get?_portsOf h hset, port?_setPort, hfound, Table.get?_insert, get?_portsOf h hsame]
  simp

end Model

namespace Protocol

theorem portTable_send {ports : Table Port} {name : String} {port : Port}
    (hport : ports.get? name = some port) (value : Value) :
    portTable.send ports name value = .ok (ports.insert name (port.holding value)) := by
  simp [portTable, hport, Port.holding]

theorem portTable_lenient : portTable.Lenient := by
  rintro ports name value ⟨direction, hdirection, _⟩
  obtain ⟨port, hport, _⟩ := Option.map_eq_some_iff.1 hdirection
  exact ⟨_, portTable_send hport value⟩

/-- What the action sent, if it was a send, belongs to the type of its port. -/
def Result.Fits (model : Model) (name : String) (result : Result) : Prop :=
  result.operation = .send → ∀ port, model.port? ⟨name, result.port⟩ = some port →
    model.symbols.conforms result.value port.type = true

theorem Result.passes_iff_fits {model : Model} {name : String} {result : Result} :
    result.passes (model.checkValue name) = true ↔ result.Fits model name := by
  unfold passes vet Fits Model.checkValue
  cases result.operation with
  | receive => simp [Except.isOk, Except.toBool]
  | send =>
    cases model.port? ⟨name, result.port⟩ with
    | none => simp [Except.isOk, Except.toBool]
    | some port =>
      simp only [Port.checkPayload, SymbolTable.check]
      split <;> simp_all [Except.isOk, Except.toBool]

theorem Result.vet_of_not_fits {model : Model} {name : String} {result : Result}
    (h : ¬ result.Fits model name) :
    ∃ port, model.port? ⟨name, result.port⟩ = some port ∧ result.vet (model.checkValue name) =
      .error (.typeMismatch (.nonconforming (.port port.ref) port.type result.value)) := by
  unfold Fits at h
  push Not at h
  obtain ⟨hsend, port, hport, hconforms⟩ := h
  refine ⟨port, hport, ?_⟩
  simp [vet, hsend, Model.checkValue, hport, Port.checkPayload, SymbolTable.check, hconforms]

end Protocol

namespace Simulation

open Protocol (portTable Machine Result)

/-- A run that goes on, with nothing waiting. -/
structure Ready (model : Model) (config : Config) (sim : Simulation) : Prop where
  alike : Alike (.new model config) sim
  wakeups_eq : sim.wakeups = []
  live : sim.halted = false

variable {model : Model} {config : Config} {name : String} {sim : Simulation}

theorem Ready.of_driven {history : List Moment} (driven : Driven (.new model config) history sim)
    (hlive : sim.halted = false) : Ready model config sim := by
  have hsteady := Steady.new model config
  exact ⟨(driven.steady hsteady).1.alike, driven.wakeups_eq_nil hsteady rfl, hlive⟩

theorem linksFrom_eq_nil (h : model.Detached name) (halike : Alike (.new model config) sim)
    (port : String) : sim.wiring.linksFrom ⟨name, port⟩ = [] := by
  apply List.eq_nil_iff_forall_not_mem.2
  intro index hmem
  obtain ⟨link, hlink, hsource⟩ := (halike.indexed _ _).1 hmem
  rw [halike.links] at hlink
  exact h.unlinked link (List.mem_of_getElem? hlink) (by rw [hsource])

/-- What a protocol sends from a port that nothing leads away from, the port takes, and nothing else
happens. -/
theorem componentAccess_send_detached (h : model.Detached name) (hready : Ready model config sim)
    (port : String) (value : Value) :
    (componentAccess name).send sim port value =
      (sim.model.checkSend ⟨name, port⟩ value).map fun () =>
        (Event.write ⟨name, port⟩ value).effect sim := by
  have houter : sim.model.delegatingOuter? ⟨name, port⟩ = none := by
    rw [Model.delegatingOuter?_congr hready.alike.outline]
    exact Model.delegatingOuter?_eq_none h port
  simp only [componentAccess, hready.live, Bool.false_eq_true, if_false, Simulation.send,
    Model.sendChain, Model.chainFrom, houter]
  cases sim.model.checkSend ⟨name, port⟩ value with
  | error fault => rfl
  | ok =>
    have hsent : sim.sendAlong [⟨name, port⟩] value = (Event.write ⟨name, port⟩ value).effect sim := by
      unfold sendAlong
      rw [List.flatMap_singleton, linksFrom_eq_nil h hready.alike]
      rfl
    change Except.ok (sim.sendAlong [⟨name, port⟩] value).drain = _
    rw [hsent]
    exact congrArg Except.ok (drainLoop_settled hready.wakeups_eq)

theorem Ready.write (hready : Ready model config sim) (port : PortRef) (value : Value) :
    Ready model config ((Event.write port value).effect sim) :=
  ⟨hready.alike.trans (.effect _ _), hready.wakeups_eq, hready.live⟩

/-- The table of a component's ports, with a check of the types of values, is a view of the
simulation. -/
theorem componentAccess_tracks_portTable (h : model.Detached name) :
    (componentAccess name).Tracks (fun sim => sim.model.portsOf name)
      (portTable.guarded (model.checkValue name)) (Ready model config) (fun _ => True)
      fun _ => True where
  direction sim port hready := by
    exact congrArg (Option.map Port.direction) (Model.get?_portsOf h hready.alike.outline port)
  current sim port hready := by
    exact congrArg (Option.bind · Port.value) (Model.get?_portsOf h hready.alike.outline port)
  kept sim port value next hsend hready := by
    rw [componentAccess_send_detached h hready] at hsend
    cases hcheck : sim.model.checkSend ⟨name, port⟩ value with
    | error fault =>
      rw [hcheck] at hsend
      cases hsend
    | ok =>
      rw [hcheck] at hsend
      cases hsend
      exact hready.write ⟨name, port⟩ value
  alive_of _ _ _ _ _ _ := trivial
  send sim port value hready hsendable _ _ := by
    obtain ⟨direction, hdirection, hcan⟩ := hsendable
    obtain ⟨found, hfound, rfl⟩ := Option.map_eq_some_iff.1 hdirection
    rw [componentAccess_send_detached h hready, Model.checkSend_eq hfound hcan,
      Model.checkValue_congr hready.alike.outline]
    simp only [Protocol.Access.guarded]
    change (model.checkValue name port value >>= fun _ => _) =
      ((model.checkValue name port value).map _).map _
    cases model.checkValue name port value with
    | error fault => rfl
    | ok =>
      have hget := (Model.get?_portsOf h hready.alike.outline port).trans hfound
      have htable := Model.portsOf_setPort h hready.alike.outline hfound value
      change portTable.send (sim.model.portsOf name) port value =
        .ok ((sim.model.setPort ⟨name, port⟩ value).portsOf name)
      rw [htable]
      exact Protocol.portTable_send hget value

/-- Inside a simulation a protocol does what it does on a table of ports that refuses values of a
wrong type. -/
theorem run_componentAccess (h : model.Detached name) (hready : Ready model config sim)
    (protocol : Protocol) (symbols : SymbolTable) (bound : Nat) :
    Machine.run {} protocol (portTable.guarded (model.checkValue name)) symbols bound
        (sim.model.portsOf name) =
      (Machine.run {} protocol (componentAccess name) symbols bound sim).map id
        (·.map id fun sim => sim.model.portsOf name) :=
  Machine.run_tracks (componentAccess_tracks_portTable h) protocol symbols bound {} hready trivial
    (by simp)

/-- However a simulation has been driven, as long as it has not halted, a protocol does the same on
the ports of a component that nothing leads away from as on a table of these ports, if all values
that it sends belong to the types of their ports: the outcome, the machine with its results and
bindings, and the ports are the same in the end. Otherwise it fails inside the simulation at the
first value that does not, with all results before. -/
theorem protocol_standalone {history : List Moment}
    (driven : Driven (.new model config) history sim) (hlive : sim.halted = false)
    (hdetached : model.Detached name) (protocol : Protocol) (symbols : SymbolTable) (bound : Nat) :
    let alone := Machine.run {} protocol portTable symbols bound (sim.model.portsOf name)
    let inside := Machine.run {} protocol (componentAccess name) symbols bound sim
    ((∀ result ∈ alone.2.1.results, result.Fits model name) →
      inside.1 = alone.1 ∧ inside.2.1 = alone.2.1 ∧ inside.2.2.model.portsOf name = alone.2.2) ∧
    ∀ good bad rest, alone.2.1.results = good ++ bad :: rest →
      (∀ result ∈ good, result.Fits model name) → ¬ bad.Fits model name →
        (∃ port, model.port? ⟨name, bad.port⟩ = some port ∧ inside.1 =
          .error (.typeMismatch (.nonconforming (.port port.ref) port.type bad.value))) ∧
        inside.2.1.results = good ∧ inside.2.1.phase = .running bad.iteration := by
  intro alone inside
  have hinside := run_componentAccess hdetached (.of_driven driven hlive) protocol symbols bound
  have hcut := Machine.run_guarded Protocol.portTable_lenient (model.checkValue name) protocol symbols
    bound (sim.model.portsOf name)
  rw [hinside] at hcut
  constructor
  · intro hfits
    have hsame := hcut.same (Result.firstRefused?_eq_none_iff.2 fun result hmem =>
      Result.passes_iff_fits.2 (hfits result hmem))
    exact ⟨congrArg Prod.fst hsame, congrArg (fun run => run.2.1) hsame,
      congrArg (fun run => run.2.2) hsame⟩
  · intro good bad rest hresults hgood hbad
    have hpasses : ∀ result ∈ good, result.passes (model.checkValue name) = true :=
      fun result hmem => Result.passes_iff_fits.2 (hgood result hmem)
    have hrefused : bad.passes (model.checkValue name) = false := by
      rw [Bool.eq_false_iff]
      exact fun hpass => hbad (Result.passes_iff_fits.1 hpass)
    obtain ⟨port, hport, hvet⟩ := Result.vet_of_not_fits hbad
    have hstop := hcut.stop bad (by
      change Result.firstRefused? _ alone.2.1.results = _
      rw [hresults]
      exact Result.firstRefused?_split hpasses hrefused)
    change _ ∧ _ = Result.accepted _ alone.2.1.results ∧ _ at hstop
    rw [hresults, Result.accepted_split hpasses hrefused, hvet] at hstop
    exact ⟨⟨port, hport, hstop.1⟩, hstop.2⟩

end Simulation

def echo : Protocol where
  name := "echo"
  component := some "client"
  actions := [.receive "ask" (some "n"), .send "reply" (.variable "n")]
  control := .once

def greet : Protocol where
  name := "greet"
  component := some "client"
  actions := [.send "reply" (.const (.text "hello"))]
  control := .once

/-- A client that is asked for numbers and replies with them. -/
def loose : Model where
  name := "loose"
  components := .ofList [
    ("client", {
      name := "client"
      ports := [⟨"ask", .input, "client", .integer, none⟩, ⟨"reply", .output, "client", .integer, none⟩] })]
  protocols := .ofList [("greet", greet)]

theorem detached_loose : loose.Detached "client" := by
  have hcomponents : ∀ entry ∈ loose.components.toList,
      (entry.2.ports.map Port.name).Nodup ∧ entry.2.delegations = [] := by decide +kernel
  refine ⟨?_, by decide +kernel, ?_⟩
  · intro component hfound
    exact (hcomponents _ (Entries.mem_of_lookup hfound)).1
  · intro composite hmem delegation hdelegation
    obtain ⟨entry, hentry, rfl⟩ := List.mem_map.1 hmem
    rw [(hcomponents entry hentry).2] at hdelegation
    cases hdelegation

namespace Simulation

open Protocol (portTable Machine Result)

def asked : Simulation := propagated loose {} [("client.ask", .int 7)]

theorem protocol_standalone_loose :
    asked.halted = false ∧ loose.Detached "client" ∧
      (Machine.run {} echo portTable {} 8 (asked.model.portsOf "client")).2.1.results =
        [⟨0, .receive, "ask", .int 7⟩, ⟨0, .send, "reply", .int 7⟩] ∧
      (Machine.run {} echo (componentAccess "client") {} 8 asked).2.1 =
        (Machine.run {} echo portTable {} 8 (asked.model.portsOf "client")).2.1 ∧
      (Machine.run {} greet portTable {} 8 (asked.model.portsOf "client")).2.1.results =
        [⟨0, .send, "reply", .text "hello"⟩] ∧
      (Machine.run {} greet (componentAccess "client") {} 8 asked).2.1.results = [] ∧
      (Machine.run {} greet (componentAccess "client") {} 8 asked).2.1.phase = .running 0 := by
  have hlive : asked.halted = false := by decide +kernel
  have hechoed : (Machine.run {} echo portTable {} 8 (asked.model.portsOf "client")).2.1.results =
      [⟨0, .receive, "ask", .int 7⟩, ⟨0, .send, "reply", .int 7⟩] := by decide +kernel
  have hgreeted : (Machine.run {} greet portTable {} 8 (asked.model.portsOf "client")).2.1.results =
      [] ++ [⟨0, .send, "reply", .text "hello"⟩] := by decide +kernel
  have hdriven : Driven (.new loose {}) (propagatedHistory loose {} [("client.ask", .int 7)]) asked :=
    propagated_driven ..
  have hecho := (protocol_standalone hdriven hlive detached_loose echo {} 8).1
  have hgreet := (protocol_standalone hdriven hlive detached_loose greet {} 8).2 [] _ [] hgreeted
  refine ⟨hlive, detached_loose, hechoed, ?_, hgreeted, ?_⟩
  · refine (hecho fun result hmem => Result.passes_iff_fits.1 ?_).2.1
    rw [hechoed] at hmem
    revert result
    decide +kernel
  · refine (hgreet (by simp) fun hfits => ?_).2
    cases Result.passes_iff_fits.2 hfits

/-- A text goes out from the port of a number if the ports stand in a table of their own, and is
refused inside the simulation. -/
theorem loose_greeting :
    (∃ session, Session.load loose {} = .ok session) ∧ loose.Detached "client" ∧
      (propagated loose {} []).halted = false ∧
      (Machine.run {} greet portTable {} 8 ((propagated loose {} []).model.portsOf "client")).1 = .ok () ∧
      (Machine.run {} greet (componentAccess "client") {} 8 (propagated loose {} [])).1 =
        .error (.typeMismatch (.nonconforming (.port ⟨"client", "reply"⟩) .integer (.text "hello"))) ∧
      portTable.current
        (Machine.run {} greet portTable {} 8
          ((propagated loose {} []).model.portsOf "client")).2.2 "reply" = some (.text "hello") ∧
      (componentAccess "client").current
        (Machine.run {} greet (componentAccess "client") {} 8 (propagated loose {} [])).2.2 "reply" =
        none :=
  ⟨⟨_, rfl⟩, detached_loose, by decide +kernel, by decide +kernel, by decide +kernel,
    by decide +kernel, by decide +kernel⟩

end Simulation
end Archflow
