import Archflow.Proofs.Outline
import Archflow.Simulation.Host

/-!
Histories: what happens in a simulation, one event after the other, each with the state it happens
in. Every event has an effect on the state, and the effects of a history account for all that a
routine changes (`Leads`). This module covers single transmissions; a history goes into the
deliveries that a transmission makes and into every port that a value lands on.
-/
namespace Archflow.Simulation

/-- The smallest things that happen. `busy`, `drain` and `attempt` only mark a place. -/
inductive Event where
  /-- A value is put on the channel of a link. -/
  | transmit (index : Nat) (value : Value)
  | claim (channel : String)
  /-- A channel that is being served is left alone. -/
  | busy (channel : String)
  /-- The delivery that has waited longest is taken out, to be delivered. -/
  | deliver (channel : String) (delivery : Delivery)
  | release (channel : String)
  | land (port : PortRef) (value : Value)
  /-- A port that sends takes the value. -/
  | write (port : PortRef) (value : Value)
  /-- The result of a firing is entered in the state of a component. -/
  | store (component key : String) (value : Value)
  /-- A port that cannot receive is given a value from outside. -/
  | place (port : PortRef) (value : Value)
  | seed
  | record (element : String) (kind : StepKind) (input output : Option Value)
  | fail (element : String) (kind : StepKind) (input : Option Value) (fault : Fault)
  | halt (fault : Fault)
  | drain
  /-- The first wake-up leaves the queue. -/
  | pop
  | wake (wakeup : Wakeup)
  /-- An activity is given the chance to fire. -/
  | attempt (wakeup : Wakeup) (activity : String)
  | rest (depth : Nat)
  | resume

def Event.effect (event : Event) (sim : Simulation) : Simulation :=
  match event with
  | .transmit index value =>
    match sim.wiring.links[index]? with
    | none => sim
    | some link =>
        let transmitted := if sim.transmitted.contains index then sim.transmitted
          else index :: sim.transmitted
        { sim with transmitted }.putChannel link.channel
          ((sim.wiring.channel link.channel).enqueue ⟨index, value⟩)
  | .claim name => sim.putChannel name { sim.wiring.channel name with delivering := true }
  | .deliver name _ =>
      let channel := sim.wiring.channel name
      sim.putChannel name { channel with pending := channel.pending.tail }
  | .release name => sim.putChannel name (sim.wiring.channel name).finish
  | .land port value => sim.land value port
  | .write port value => { sim with model := sim.model.setPort port value }
  | .store component key value => { sim with model := sim.model.setState component key value }
  | .place port value =>
      { sim with model := (sim.model.setPort port value).setState port.component port.port value }
  | .seed => sim.seedInitialValues
  | .record element kind input output => sim.record element kind input output
  | .fail element kind input fault => sim.fail element kind input fault
  | .halt fault => sim.halt fault
  | .pop => { sim with wakeups := sim.wakeups.tail }
  | .wake wakeup => { sim with depth := wakeup.depth + 1 }
  | .rest depth => { sim with depth }
  | .resume => { sim with halted := false }
  | .busy _ | .drain | .attempt .. => sim

namespace Event

def isTransport : Event → Bool
  | .transmit .. | .claim _ | .busy _ | .deliver .. | .release _ => true
  | _ => false

/-- The events that change ports, states or the trace, and start or end nothing. -/
def isPlain : Event → Bool
  | .land .. | .write .. | .store .. | .place .. | .seed | .record .. | .fail .. | .resume => true
  | _ => false

def isChange : Event → Bool
  | .land .. | .write .. | .store .. | .place .. | .seed => true
  | _ => false

def isControl : Event → Bool
  | .halt _ | .drain | .pop | .wake _ | .rest _ => true
  | _ => false

/-- A value goes only to a port that has accepted it. -/
def Checked (sim : Simulation) : Event → Prop
  | .land port value => sim.model.checkReceive port value = .ok ()
  | .write port value => sim.model.checkSend port value = .ok ()
  | .place port value => ∃ resolved, sim.model.resolve port = .ok resolved ∧
      resolved.checkPayload sim.model.symbols value = .ok ()
  | _ => True

/-- A plain event of a run. A live run changes nothing after a halt. -/
def Plain (live : Prop) (sim : Simulation) (event : Event) : Prop :=
  event.isPlain = true ∧ event.Checked sim ∧ (live → event.isChange = true → sim.halted = false)

def Carries (sim : Simulation) (event : Event) : Prop :=
  event.Checked sim ∧ (event.isTransport = true ∨ event.isPlain = true)

theorem Plain.carries {live : Prop} {sim : Simulation} {event : Event} (h : event.Plain live sim) :
    event.Carries sim :=
  ⟨h.2.1, .inr h.1⟩

end Event

/-- An event and the state it happens in. -/
structure Moment where
  sim : Simulation
  event : Event

def collect {α : Type} (tell : Event → Option α) (history : List Moment) : List α :=
  history.filterMap fun moment => tell moment.event

section
variable {α : Type} (tell : Event → Option α)

@[simp] theorem collect_nil : collect tell [] = [] := rfl

@[simp] theorem collect_cons (moment : Moment) (history : List Moment) :
    collect tell (moment :: history) = (tell moment.event).toList ++ collect tell history := by
  unfold collect
  rw [List.filterMap_cons]
  cases tell moment.event <;> rfl

@[simp] theorem collect_append (history later : List Moment) :
    collect tell (history ++ later) = collect tell history ++ collect tell later :=
  List.filterMap_append

theorem collect_eq_nil {tell : Event → Option α} {history : List Moment}
    (h : ∀ moment ∈ history, tell moment.event = none) : collect tell history = [] :=
  List.filterMap_eq_nil_iff.2 h

theorem exists_of_mem_collect {tell : Event → Option α} {history : List Moment} {item : α}
    (h : item ∈ collect tell history) :
    ∃ earlier sim event later, history = earlier ++ ⟨sim, event⟩ :: later ∧
      tell event = some item := by
  obtain ⟨⟨sim, event⟩, hmem, htold⟩ := List.mem_filterMap.1 h
  obtain ⟨earlier, later, hsplit⟩ := List.append_of_mem hmem
  exact ⟨earlier, sim, event, later, hsplit, htold⟩

end

/-- A history that leads from one state to another: every event is admitted in the state it happens
in, which is the one that the events before it have brought about. -/
inductive Leads (admits : Simulation → Event → Prop) :
    Simulation → List Moment → Simulation → Prop
  | nil (sim : Simulation) : Leads admits sim [] sim
  | cons {sim last : Simulation} {event : Event} {history : List Moment}
      (admitted : admits sim event) (tail : Leads admits (event.effect sim) history last) :
      Leads admits sim (⟨sim, event⟩ :: history) last

namespace Leads

variable {admits : Simulation → Event → Prop} {sim mid last : Simulation}
  {history later : List Moment} {event : Event}

theorem single (h : admits sim event) : Leads admits sim [⟨sim, event⟩] (event.effect sim) :=
  .cons h (.nil _)

theorem append (first : Leads admits sim history mid) (second : Leads admits mid later last) :
    Leads admits sim (history ++ later) last := by
  induction first with
  | nil => exact second
  | cons admitted _ ih => exact .cons admitted (ih second)

theorem mono {wider : Simulation → Event → Prop} (h : ∀ sim event, admits sim event → wider sim event)
    (leads : Leads admits sim history last) : Leads wider sim history last := by
  induction leads with
  | nil => exact .nil _
  | cons admitted _ ih => exact .cons (h _ _ admitted) ih

/-- What every admitted event preserves holds at every moment of a history and at its end. -/
theorem invariant {holds : Simulation → Prop}
    (step : ∀ sim event, admits sim event → holds sim → holds (event.effect sim))
    (leads : Leads admits sim history last) (h : holds sim) :
    holds last ∧ ∀ moment ∈ history, holds moment.sim := by
  induction leads with
  | nil => exact ⟨h, by simp⟩
  | cons admitted _ ih =>
    obtain ⟨hlast, hmoments⟩ := ih (step _ _ admitted h)
    refine ⟨hlast, fun moment hmem => ?_⟩
    rcases List.mem_cons.1 hmem with rfl | hmem
    · exact h
    · exact hmoments moment hmem

theorem admits_of_mem (leads : Leads admits sim history last) :
    ∀ moment ∈ history, admits moment.sim moment.event := by
  induction leads with
  | nil => simp
  | cons admitted _ ih =>
    intro moment hmem
    rcases List.mem_cons.1 hmem with rfl | hmem
    · exact admitted
    · exact ih moment hmem

/-- What comes to a live end, with only live moments on the way, starts live. -/
theorem live_start (leads : Leads admits sim history last)
    (lived : ∀ moment ∈ history, moment.sim.halted = false) (hlive : last.halted = false) :
    sim.halted = false := by
  cases leads with
  | nil => exact hlive
  | cons => exact (List.forall_mem_cons.1 lived).1

end Leads

/-- A property of every moment of a history and of what comes after it. -/
def Throughout (holds : Moment → List Moment → Prop) : List Moment → Prop
  | [] => True
  | moment :: later => holds moment later ∧ Throughout holds later

namespace Throughout

variable {holds wider : Moment → List Moment → Prop} {history later : List Moment}

theorem append (h : ∀ moment rest, holds moment rest → wider moment (rest ++ later))
    (first : Throughout holds history) (second : Throughout wider later) :
    Throughout wider (history ++ later) := by
  induction history with
  | nil => exact second
  | cons moment rest ih => exact ⟨h _ _ first.1, ih first.2⟩

theorem of_split {before : List Moment} {moment : Moment}
    (h : Throughout holds (before ++ moment :: later)) : holds moment later := by
  induction before with
  | nil => exact h.1
  | cons first rest ih => exact ih h.2

end Throughout

/-- Two states of a simulation of one model: they may differ in port values, component states, the
trace, the channels, the wake-ups and the progress of the run, and in nothing else. -/
structure Alike (sim other : Simulation) : Prop where
  outline : other.model.outline = sim.model.outline
  links : other.wiring.links = sim.wiring.links
  outgoing : other.wiring.outgoing = sim.wiring.outgoing
  schedule : other.wiring.schedule = sim.wiring.schedule
  realization : other.realization = sim.realization
  problems : other.problems = sim.problems
  config : other.config = sim.config

namespace Alike

theorem refl (sim : Simulation) : Alike sim sim := ⟨rfl, rfl, rfl, rfl, rfl, rfl, rfl⟩

theorem trans {sim mid last : Simulation} (h : Alike sim mid) (h' : Alike mid last) : Alike sim last :=
  ⟨h'.1.trans h.1, h'.2.trans h.2, h'.3.trans h.3, h'.4.trans h.4, h'.5.trans h.5, h'.6.trans h.6,
    h'.7.trans h.7⟩

theorem limit {sim other : Simulation} (h : Alike sim other) : other.limit = sim.limit :=
  congrArg Config.maxCascadeDepth h.config

/-- What does not depend on port values and component states is the same. -/
theorem declared {α : Type} {sim other : Simulation} (h : Alike sim other) (f : Model → α)
    (hf : ∀ model, f model.outline = f model) : f other.model = f sim.model := by
  rw [← hf other.model, h.outline, hf]

theorem land (sim : Simulation) (value : Value) (port : PortRef) : Alike sim (sim.land value port) := by
  unfold Simulation.land
  dsimp only
  split <;> exact ⟨by simp [record], rfl, rfl, rfl, rfl, rfl, rfl⟩

theorem fail (sim : Simulation) (element : String) (kind : StepKind) (input : Option Value)
    (fault : Fault) : Alike sim (sim.fail element kind input fault) := by
  unfold Simulation.fail
  split <;> exact ⟨rfl, rfl, rfl, rfl, rfl, rfl, rfl⟩

theorem seed (sim : Simulation) : Alike sim sim.seedInitialValues := by
  refine ⟨?_, rfl, rfl, rfl, rfl, rfl, rfl⟩
  have hcomponents : sim.seedInitialValues.model.components.map (fun _ => Component.outline) =
      sim.model.components.map fun _ => Component.outline := by
    apply Table.ext_get?
    intro key
    simp only [seedInitialValues, Table.get?_map, Option.map_map]
    rfl
  unfold Model.outline
  rw [hcomponents]
  rfl

theorem popped (sim : Simulation) (rest : List Wakeup) : Alike sim { sim with wakeups := rest } :=
  ⟨rfl, rfl, rfl, rfl, rfl, rfl, rfl⟩

theorem effect (event : Event) (sim : Simulation) : Alike sim (event.effect sim) := by
  cases event with
  | transmit index value =>
    unfold Event.effect
    dsimp only
    split <;> exact ⟨rfl, rfl, rfl, rfl, rfl, rfl, rfl⟩
  | land port value => exact .land ..
  | fail element kind input fault => exact .fail ..
  | seed => exact .seed sim
  | write port value => exact ⟨sim.model.outline_setPort .., rfl, rfl, rfl, rfl, rfl, rfl⟩
  | store component key value => exact ⟨sim.model.outline_setState .., rfl, rfl, rfl, rfl, rfl, rfl⟩
  | place port value => exact ⟨by simp [Event.effect], rfl, rfl, rfl, rfl, rfl, rfl⟩
  | _ => exact ⟨rfl, rfl, rfl, rfl, rfl, rfl, rfl⟩

end Alike

theorem Leads.alike {admits : Simulation → Event → Prop} {sim last : Simulation}
    {history : List Moment} (leads : Leads admits sim history last) :
    Alike sim last ∧ ∀ moment ∈ history, Alike sim moment.sim :=
  leads.invariant (fun _ event _ h => h.trans (.effect event _)) (.refl sim)

def failHistory (sim : Simulation) (element : String) (kind : StepKind) (input : Option Value) :
    Except Fault Unit → List Moment
  | .ok () => []
  | .error fault => [⟨sim, .fail element kind input fault⟩]

def landHistory (value : Value) : List PortRef → Simulation → List Moment
  | [], _ => []
  | port :: rest, sim => ⟨sim, .land port value⟩ :: landHistory value rest (sim.land value port)

def receiveHistory (sim : Simulation) (port : PortRef) (value : Value) : List Moment :=
  match sim.model.receiveTargets sim.limit port value with
  | .error _ => []
  | .ok targets => landHistory value targets sim

def transformHistory (sim : Simulation) (transform : Option String) (raw : Value) : List Moment :=
  match transform with
  | none => []
  | some name =>
    match sim.model.executables.get? name with
    | none => []
    | some exe =>
      match exe.run [raw] sim.model.symbols with
      | .ok (some output) =>
          [⟨sim, .record name .exec (some (exe.callRecord [raw])) (some output)⟩]
      | _ => []

def deliverHistory (sim : Simulation) (delivery : Delivery) : List Moment :=
  match sim.wiring.links[delivery.link]? with
  | none => []
  | some link =>
    let functions := sim.functionsOf link
    sim.transformHistory functions.transform delivery.value ++
      match sim.transformed functions.transform delivery.value with
      | (.error _, _) => []
      | (.ok carried, sim) =>
        match sim.checkCarried link functions.constraint delivery.value carried with
        | .error _ => []
        | .ok () => sim.receiveHistory link.target carried

/-- One value is taken from a channel and delivered, and a failure recorded. -/
def serve (sim : Simulation) (name : String) (delivery : Delivery) : Simulation :=
  let (outcome, sim) := ((Event.deliver name delivery).effect sim).deliver delivery
  sim.failIf name .log (some delivery.value) outcome

def serveHistory (sim : Simulation) (name : String) (delivery : Delivery) : List Moment :=
  let taken := (Event.deliver name delivery).effect sim
  ⟨sim, .deliver name delivery⟩ :: (taken.deliverHistory delivery ++
    (taken.deliver delivery).2.failHistory name .log (some delivery.value) (taken.deliver delivery).1)

def pumpLoopHistory (name : String) : (count : Nat) → Simulation → List Moment
  | 0, sim => [⟨sim, .release name⟩]
  | count + 1, sim =>
    match (sim.wiring.channel name).next? with
    | none => [⟨sim, .release name⟩]
    | some (delivery, _) =>
        sim.serveHistory name delivery ++
          if (sim.serve name delivery).halted then []
          else pumpLoopHistory name count (sim.serve name delivery)

def pumpHistory (sim : Simulation) (name : String) : List Moment :=
  match (sim.wiring.channel name).begin? with
  | none => [⟨sim, .busy name⟩]
  | some channel =>
      ⟨sim, .claim name⟩ :: pumpLoopHistory name channel.size (sim.putChannel name channel)

def transmitHistory (sim : Simulation) (index : Nat) (value : Value) : List Moment :=
  match sim.wiring.links[index]? with
  | none => []
  | some link =>
      ⟨sim, .transmit index value⟩ ::
        ((Event.transmit index value).effect sim).pumpHistory link.channel

section
variable (live : Prop)

theorem failIf_leads (sim : Simulation) (element : String) (kind : StepKind) (input : Option Value)
    (outcome : Except Fault Unit) :
    Leads (Event.Plain live) sim (sim.failHistory element kind input outcome)
      (sim.failIf element kind input outcome) := by
  cases outcome with
  | ok => exact .nil _
  | error fault => exact .single ⟨rfl, trivial, fun _ h => by cases h⟩

@[simp] theorem halted_land (sim : Simulation) (value : Value) (port : PortRef) :
    (sim.land value port).halted = sim.halted := by
  unfold land
  dsimp only
  split <;> rfl

theorem lands_lead {value : Value} {targets : List PortRef} {sim : Simulation}
    (h : ∀ port ∈ targets, sim.model.checkReceive port value = .ok ())
    (hlive : live → sim.halted = false) :
    Leads (Event.Plain live) sim (landHistory value targets sim)
      (targets.foldl (fun sim target => sim.land value target) sim) := by
  induction targets generalizing sim with
  | nil => exact .nil _
  | cons port rest ih =>
    refine .cons ⟨rfl, h port (by simp), fun hl _ => hlive hl⟩ (ih (fun other hmem => ?_) ?_)
    · change (sim.land value port).model.checkReceive other value = .ok ()
      rw [Model.checkReceive_congr (Alike.land sim value port).outline]
      exact h other (by simp [hmem])
    · intro hl
      exact (halted_land ..).trans (hlive hl)

end

end Archflow.Simulation

namespace Archflow.Model

theorem checked_of_receiveLoop {model : Model} {limit : Nat} {value : Value}
    {targets found : List PortRef} {pending : List (PortRef × Nat)}
    (h : model.receiveLoop limit value targets pending = .ok found)
    (hchecked : ∀ port ∈ targets, model.checkReceive port value = .ok ()) :
    ∀ port ∈ found, model.checkReceive port value = .ok () := by
  fun_induction receiveLoop model limit value targets pending with
  | case1 targets =>
    cases h
    exact hchecked
  | case2 => cases h
  | case3 => cases h
  | case4 targets ref hops rest _ hcheck _ ih =>
    refine ih h fun port hmem => ?_
    rcases List.mem_append.1 hmem with hmem | hmem
    · exact hchecked port hmem
    · rw [List.mem_singleton.1 hmem]
      exact hcheck

theorem checked_of_receiveTargets {model : Model} {limit : Nat} {ref : PortRef} {value : Value}
    {targets : List PortRef} (h : model.receiveTargets limit ref value = .ok targets) :
    ∀ port ∈ targets, model.checkReceive port value = .ok () :=
  checked_of_receiveLoop h (by simp)

end Archflow.Model

namespace Archflow.Simulation

theorem receive_leads (live : Prop) (sim : Simulation) (port : PortRef) (value : Value)
    (hlive : live → sim.halted = false) :
    Leads (Event.Plain live) sim (sim.receiveHistory port value) (sim.receive port value).2 := by
  unfold receiveHistory receive
  cases htargets : sim.model.receiveTargets sim.limit port value with
  | error fault => exact .nil _
  | ok targets => exact lands_lead live (Model.checked_of_receiveTargets htargets) hlive

theorem receive_error {sim rejected : Simulation} {port : PortRef} {value : Value} {fault : Fault}
    (h : sim.receive port value = (.error fault, rejected)) :
    rejected = sim ∧ sim.receiveHistory port value = [] := by
  unfold receive at h
  unfold receiveHistory
  cases htargets : sim.model.receiveTargets sim.limit port value with
  | ok targets => simp [htargets] at h
  | error other =>
    rw [htargets] at h
    cases h
    exact ⟨rfl, rfl⟩

/-- The simulation after an executable may have run: nothing has changed, or the call has been
recorded. -/
def Ran (executable : Option String) (sim ran : Simulation) : Prop :=
  ran = sim ∨ ∃ name input output, executable = some name ∧
    ran = sim.record name .exec (some input) output

namespace Ran

variable {executable : Option String} {sim ran : Simulation}

theorem model (h : Ran executable sim ran) : ran.model = sim.model := by
  rcases h with rfl | ⟨name, input, output, _, rfl⟩ <;> rfl

theorem wiring (h : Ran executable sim ran) : ran.wiring = sim.wiring := by
  rcases h with rfl | ⟨name, input, output, _, rfl⟩ <;> rfl

theorem limit (h : Ran executable sim ran) : ran.limit = sim.limit := by
  rcases h with rfl | ⟨name, input, output, _, rfl⟩ <;> rfl

theorem halted (h : Ran executable sim ran) : ran.halted = sim.halted := by
  rcases h with rfl | ⟨name, input, output, _, rfl⟩ <;> rfl

end Ran

/-- A transform that runs is recorded, whatever becomes of its result. -/
theorem transformed_cases (sim : Simulation) (transform : Option String) (raw : Value) :
    Ran transform sim (sim.transformed transform raw).2 ∧
      Leads (Event.Plain False) sim (sim.transformHistory transform raw)
        (sim.transformed transform raw).2 := by
  cases transform with
  | none => exact ⟨.inl rfl, .nil _⟩
  | some name =>
    simp only [transformHistory, transformed, runTransform]
    cases sim.model.executables.get? name with
    | none => exact ⟨.inl rfl, .nil _⟩
    | some exe =>
      dsimp only
      cases exe.run [raw] sim.model.symbols with
      | error fault => exact ⟨.inl rfl, .nil _⟩
      | ok result =>
        cases result with
        | none => exact ⟨.inl rfl, .nil _⟩
        | some output =>
          exact ⟨.inr ⟨name, _, _, rfl, rfl⟩, .single ⟨rfl, trivial, False.elim⟩⟩

def transformOf (sim : Simulation) (delivery : Delivery) : Option String :=
  sim.wiring.links[delivery.link]?.bind fun link => (sim.functionsOf link).transform

/-- All that a delivery can do: it fails and at most the call of its transform is recorded, or the
value that comes out lands on the target of the link and on all ports that the target reaches. -/
theorem deliver_cases (sim : Simulation) (delivery : Delivery) :
    (∃ fault ran, sim.deliver delivery = (.error fault, ran) ∧
      Ran (sim.transformOf delivery) sim ran ∧
      sim.deliverHistory delivery = sim.transformHistory (sim.transformOf delivery) delivery.value ∧
      Leads (Event.Plain False) sim (sim.deliverHistory delivery) ran) ∨
    ∃ link carried targets ran, sim.wiring.links[delivery.link]? = some link ∧
      Ran (sim.transformOf delivery) sim ran ∧
      ran.model.receiveTargets ran.limit link.target carried = .ok targets ∧
      sim.deliver delivery =
        (.ok (), targets.foldl (fun sim target => sim.land carried target) ran) ∧
      sim.deliverHistory delivery = sim.transformHistory (sim.transformOf delivery) delivery.value ++
        landHistory carried targets ran ∧
      Leads (Event.Plain False) sim (sim.deliverHistory delivery) (sim.deliver delivery).2 := by
  unfold transformOf deliverHistory deliver
  cases sim.wiring.links[delivery.link]? with
  | none => exact .inl ⟨_, sim, rfl, .inl rfl, rfl, .nil _⟩
  | some link =>
    obtain ⟨hran, hleads⟩ := sim.transformed_cases (sim.functionsOf link).transform delivery.value
    dsimp only [Option.bind_some]
    generalize sim.transformed (sim.functionsOf link).transform delivery.value = made at hran hleads ⊢
    obtain ⟨carried, ran⟩ := made
    cases carried with
    | error fault => exact .inl ⟨fault, ran, rfl, hran, by simp, by simpa using hleads⟩
    | ok carried =>
      dsimp only
      cases ran.checkCarried link (sim.functionsOf link).constraint delivery.value carried with
      | error fault => exact .inl ⟨fault, ran, rfl, hran, by simp, by simpa using hleads⟩
      | ok =>
        have hreceive := hleads.append (receive_leads False ran link.target carried False.elim)
        revert hreceive
        dsimp only [receive, receiveHistory]
        cases htargets : ran.model.receiveTargets ran.limit link.target carried with
        | error fault => exact fun _ => .inl ⟨fault, ran, rfl, hran, by simp, by simpa using hleads⟩
        | ok targets =>
          exact fun h => .inr ⟨link, carried, targets, ran, rfl, hran, htargets, rfl, rfl, h⟩

theorem deliver_leads (sim : Simulation) (delivery : Delivery) :
    Leads (Event.Plain False) sim (sim.deliverHistory delivery) (sim.deliver delivery).2 := by
  rcases sim.deliver_cases delivery with
    ⟨fault, ran, hdeliver, _, _, hleads⟩ | ⟨_, _, _, _, _, _, _, _, _, hleads⟩
  · rw [hdeliver]
    exact hleads
  · exact hleads

theorem serve_leads (sim : Simulation) (name : String) (delivery : Delivery) :
    Leads Event.Carries sim (sim.serveHistory name delivery) (sim.serve name delivery) :=
  .cons ⟨trivial, .inl rfl⟩
    (((deliver_leads ..).append (failIf_leads False ..)).mono fun _ _ => Event.Plain.carries)

theorem pumpLoop_succ (name : String) (count : Nat) (sim : Simulation) :
    pumpLoop name (count + 1) sim =
      match (sim.wiring.channel name).next? with
      | none => sim.putChannel name (sim.wiring.channel name).finish
      | some (delivery, _) =>
          if (sim.serve name delivery).halted then sim.serve name delivery
          else pumpLoop name count (sim.serve name delivery) := by
  rw [pumpLoop]
  unfold Channel.next?
  cases hpending : (sim.wiring.channel name).pending with
  | nil => rfl
  | cons delivery rest =>
    have htaken : (Event.deliver name delivery).effect sim =
        sim.putChannel name { sim.wiring.channel name with pending := rest } := by
      simp only [Event.effect, hpending, List.tail_cons]
    simp only [serve, htaken]

theorem pumpLoop_leads (name : String) (count : Nat) (sim : Simulation) :
    Leads Event.Carries sim (pumpLoopHistory name count sim) (pumpLoop name count sim) := by
  induction count generalizing sim with
  | zero => exact .single ⟨trivial, .inl rfl⟩
  | succ count ih =>
    rw [pumpLoop_succ, pumpLoopHistory]
    cases (sim.wiring.channel name).next? with
    | none => exact .single ⟨trivial, .inl rfl⟩
    | some next =>
      have hserve := sim.serve_leads name next.1
      dsimp only
      split
      · exact hserve.append (.nil _)
      · exact hserve.append (ih _)

theorem pump_leads (sim : Simulation) (name : String) :
    Leads Event.Carries sim (sim.pumpHistory name) (sim.pump name) := by
  unfold pumpHistory pump Channel.begin?
  cases (sim.wiring.channel name).delivering with
  | true => exact .single ⟨trivial, .inl rfl⟩
  | false => exact .cons ⟨trivial, .inl rfl⟩ (pumpLoop_leads ..)

theorem transmit_eq {sim : Simulation} {index : Nat} {link : Link}
    (h : sim.wiring.links[index]? = some link) (value : Value) :
    sim.transmit index value = ((Event.transmit index value).effect sim).pump link.channel := by
  simp only [transmit, Event.effect, h]

theorem transmit_leads (sim : Simulation) (index : Nat) (value : Value) :
    Leads Event.Carries sim (sim.transmitHistory index value) (sim.transmit index value) := by
  unfold transmitHistory
  cases hlink : sim.wiring.links[index]? with
  | none =>
    rw [show sim.transmit index value = sim by simp only [transmit, hlink]]
    exact .nil _
  | some link =>
    rw [transmit_eq hlink]
    exact .cons ⟨trivial, .inl rfl⟩ (pump_leads ..)

end Archflow.Simulation
