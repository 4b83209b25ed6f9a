import Archflow.Proofs.Delivery
import Archflow.Proofs.Firing
import Archflow.Proofs.Freeze

/-!
No arrival is overlooked. A value that lands on a port of a component with activities is noted in a
wake-up that waits. Other arrivals only extend what waits, and a wake-up leaves the queue only to be
served. So if the run does not halt, the component is woken up later with that port on its list, and
then each of its activities does nothing, is executed once or fails to be planned.
-/
namespace Archflow

def Wakeup.Lists (wakeup : Wakeup) (port : PortRef) : Prop :=
  wakeup.component = port.component ∧ port.port ∈ wakeup.ports

namespace Wakeup

theorem lists_enqueue (port : PortRef) (depth : Nat) (wakeups : List Wakeup) :
    ∃ wakeup ∈ enqueue port depth wakeups, wakeup.Lists port := by
  induction wakeups with
  | nil => exact ⟨_, List.mem_singleton.2 rfl, rfl, List.mem_singleton.2 rfl⟩
  | cons wakeup rest ih =>
    simp only [enqueue]
    split
    · next hsame =>
      have hcomponent : wakeup.component = port.component := by simp_all
      refine ⟨_, List.mem_cons_self, hcomponent, ?_⟩
      dsimp only
      split
      · next hlisted => simpa using hlisted
      · simp
    · obtain ⟨found, hfound, hlists⟩ := ih
      exact ⟨found, List.mem_cons_of_mem _ hfound, hlists⟩

theorem lists_enqueue_of_lists {port other : PortRef} {depth : Nat} {wakeups : List Wakeup}
    (h : ∃ wakeup ∈ wakeups, wakeup.Lists other) :
    ∃ wakeup ∈ enqueue port depth wakeups, wakeup.Lists other := by
  induction wakeups with
  | nil => simp at h
  | cons wakeup rest ih =>
    obtain ⟨found, hfound, hlists⟩ := h
    simp only [enqueue]
    rcases List.mem_cons.1 hfound with rfl | hrest
    · split
      · refine ⟨_, List.mem_cons_self, hlists.1, ?_⟩
        dsimp only
        split
        · exact hlists.2
        · exact List.mem_append_left _ hlists.2
      · exact ⟨found, List.mem_cons_self, hlists⟩
    · split
      · exact ⟨found, List.mem_cons_of_mem _ hrest, hlists⟩
      · obtain ⟨waiting, hwaiting, hlisted⟩ := ih ⟨found, hrest, hlists⟩
        exact ⟨waiting, List.mem_cons_of_mem _ hwaiting, hlisted⟩

end Wakeup

namespace Simulation

/-- What an activity makes of a wake-up of its component: nothing, because it is interested in none
of the listed ports or because a value for some input port has not arrived; an execution of its
firing, which may fail; or one failure on record, because it cannot be planned. -/
inductive Response (wakeup : Wakeup) (name : String) (sim : Simulation) :
    List Moment → Simulation → Prop
  | nothing {component : Component} {activity : Activity}
      (planned : sim.firingFor? wakeup name = .ok none)
      (component_eq : sim.model.components.get? wakeup.component = some component)
      (activity_eq : sim.model.activities.get? name = some activity)
      (reason : (∀ port ∈ wakeup.ports, activity.isInterested component port = false) ∨
        activity.isReady component = false) : Response wakeup name sim [] sim
  | executed {component : Component} {activity : Activity} {firing : Firing}
      (planned : sim.firingFor? wakeup name = .ok (some firing))
      (component_eq : sim.model.components.get? wakeup.component = some component)
      (activity_eq : sim.model.activities.get? name = some activity)
      (interested : ∃ port ∈ wakeup.ports, activity.isInterested component port = true)
      (ready : activity.isReady component = true) :
      Response wakeup name sim
        (sim.executeHistory firing ++
          (sim.execute firing).2.failHistory firing.executable .exec
            (((sim.execute firing).2.model.executables.get? firing.executable).map
              (·.callRecord firing.args))
            (sim.execute firing).1)
        (sim.tryActivity wakeup name)
  | unplanned {fault : Fault} (planned : sim.firingFor? wakeup name = .error fault) :
      Response wakeup name sim [⟨sim, .fail name .log none fault⟩]
        { sim with trace := sim.trace.recordFault name .log none fault }

inductive Responses (wakeup : Wakeup) :
    List String → Simulation → List Moment → Simulation → Prop
  | nil (sim : Simulation) : Responses wakeup [] sim [] sim
  | cons {name : String} {rest : List String} {sim mid last : Simulation}
      {block history : List Moment} (response : Response wakeup name sim block mid)
      (tail : Responses wakeup rest mid history last) :
      Responses wakeup (name :: rest) sim (⟨sim, .attempt wakeup name⟩ :: (block ++ history)) last

theorem tryActivity_response {sim : Simulation} {wakeup : Wakeup} {component : Component}
    (name : String) (hcomponent : sim.model.components.get? wakeup.component = some component)
    (hports : wakeup.ports ≠ []) :
    Response wakeup name sim (sim.tryActivityHistory wakeup name) (sim.tryActivity wakeup name) := by
  have hfirst : sim.firingFor? wakeup name = sim.firstFiring? component name wakeup.ports := by
    unfold firingFor?
    rw [hcomponent]
  cases hplanned : sim.firingFor? wakeup name with
  | error fault =>
    have hfatal := firstFiring?_error (hfirst.symm.trans hplanned)
    have hafter : sim.tryActivity wakeup name =
        { sim with trace := sim.trace.recordFault name .log none fault } := by
      simp [tryActivity, hplanned, fail, hfatal]
    rw [hafter]
    simp only [tryActivityHistory, hplanned]
    exact .unplanned hplanned
  | ok plan =>
    cases plan with
    | none =>
      obtain ⟨activity, hactivity, hreason⟩ := firstFiring?_none (hfirst.symm.trans hplanned) hports
      simp only [tryActivityHistory, tryActivity, hplanned]
      exact .nothing hplanned hcomponent hactivity hreason
    | some firing =>
      obtain ⟨port, hport, hfire⟩ := firstFiring?_some (hfirst.symm.trans hplanned)
      obtain ⟨activity, _, _, hactivity, hinterested, hready, _⟩ := Model.fire?_some hfire
      simp only [tryActivityHistory, hplanned]
      exact .executed hplanned hcomponent hactivity ⟨port, hport, hinterested⟩ hready

theorem Alike.contains {sim other : Simulation} (h : Alike sim other) (name : String) :
    other.model.components.contains name = sim.model.components.contains name := by
  have houtline : (other.model.outline.components.get? name).isSome =
      (sim.model.outline.components.get? name).isSome := by rw [h.outline]
  simpa [Model.outline, Table.contains] using houtline

/-- If the run has not halted in the end, then every activity of the component has responded. -/
theorem tryActivities_responses {model : Model} {config : Config} {wakeup : Wakeup}
    (hknown : model.components.contains wakeup.component) (hports : wakeup.ports ≠ [])
    (activities : List String) {sim : Simulation} (halike : Alike (.new model config) sim)
    (hlive : (tryActivities wakeup activities sim).halted = false) :
    Responses wakeup activities sim (tryActivitiesHistory wakeup activities sim)
      (tryActivities wakeup activities sim) := by
  induction activities generalizing sim with
  | nil => exact .nil sim
  | cons name rest ih =>
    rw [tryActivities] at hlive ⊢
    rw [tryActivitiesHistory]
    cases hhalted : sim.halted with
    | true =>
      rw [hhalted] at hlive
      simp [hhalted] at hlive
    | false =>
      simp only [hhalted, Bool.false_eq_true, if_false] at hlive ⊢
      obtain ⟨component, hcomponent⟩ : ∃ component,
          sim.model.components.get? wakeup.component = some component := by
        refine Option.isSome_iff_exists.1 ?_
        exact (halike.contains wakeup.component).trans hknown
      have hnext := (sim.tryActivity_course wakeup name hhalted).checked.alike.1
      exact .cons (tryActivity_response name hcomponent hports) (ih (halike.trans hnext) hlive)

/-! From arrivals to wake-ups. -/

def Awaits (sim : Simulation) (port : PortRef) : Prop := ∃ wakeup ∈ sim.wakeups, wakeup.Lists port

/-- The component of a port is woken up with the port on its list, and the given activities
respond. -/
def Answered (activities : List String) (port : PortRef) (history : List Moment) : Prop :=
  ∃ before awake wakeup responses done after,
    history = before ++ ⟨awake, .wake wakeup⟩ :: (responses ++ ⟨done, .rest awake.depth⟩ :: after) ∧
      wakeup.Lists port ∧
      Responses wakeup activities ((Event.wake wakeup).effect awake) responses done

section
variable {activities : List String} {port : PortRef} {history : List Moment}

theorem Answered.append (h : Answered activities port history) (later : List Moment) :
    Answered activities port (history ++ later) := by
  obtain ⟨before, awake, wakeup, responses, done, after, rfl, hlists, hresponses⟩ := h
  exact ⟨before, awake, wakeup, responses, done, after ++ later, by simp, hlists, hresponses⟩

theorem Answered.after (h : Answered activities port history) (earlier : List Moment) :
    Answered activities port (earlier ++ history) := by
  obtain ⟨before, awake, wakeup, responses, done, after, rfl, hlists, hresponses⟩ := h
  exact ⟨earlier ++ before, awake, wakeup, responses, done, after, by simp, hlists, hresponses⟩

end

/-- If a value lands on a port of a component that has activities, it is answered later, or a wake-up
waits for it in the end. -/
def Heeded (model : Model) (last : Simulation) (moment : Moment) (later : List Moment) : Prop :=
  ∀ port value, moment.event = .land port value →
    (Realization.ofModel model).1.activitiesOf port.component ≠ [] →
    Answered ((Realization.ofModel model).1.activitiesOf port.component) port later ∨ Awaits last port

/-- A history that overlooks nothing: what lands in it or waits at its start is answered in it, or
waits at its end. -/
structure Attentive (model : Model) (sim : Simulation) (history : List Moment) (last : Simulation) :
    Prop where
  landed : Throughout (Heeded model last) history
  waited : ∀ port, Awaits sim port →
    Answered ((Realization.ofModel model).1.activitiesOf port.component) port history ∨
      Awaits last port

namespace Attentive

variable {model : Model} {sim mid last : Simulation} {history later : List Moment} {event : Event}

theorem nil (sim : Simulation) : Attentive model sim [] sim := ⟨trivial, fun _ h => .inr h⟩

theorem append (first : Attentive model sim history mid) (second : Attentive model mid later last) :
    Attentive model sim (history ++ later) last := by
  have hpass {port : PortRef} {rest : List Moment}
      (h : Answered ((Realization.ofModel model).1.activitiesOf port.component) port rest ∨
        Awaits mid port) :
      Answered ((Realization.ofModel model).1.activitiesOf port.component) port (rest ++ later) ∨
        Awaits last port := by
    rcases h with hanswered | hawaits
    · exact .inl (hanswered.append later)
    · exact (second.waited port hawaits).imp_left fun hanswered => hanswered.after rest
  refine ⟨first.landed.append (fun moment rest hheeded port value hland hactive => ?_) second.landed,
    fun port hawaits => hpass (first.waited port hawaits)⟩
  exact hpass (hheeded port value hland hactive)

/-- An event at which nothing lands, and which leaves what waits. -/
theorem silent (hland : ∀ port value, event ≠ .land port value)
    (hwakeups : (event.effect sim).wakeups = sim.wakeups) :
    Attentive model sim [⟨sim, event⟩] (event.effect sim) := by
  refine ⟨⟨fun port value hevent => absurd hevent (hland port value), trivial⟩, fun port h => .inr ?_⟩
  unfold Awaits
  rw [hwakeups]
  exact h

variable {config : Config}

/-- A value that lands is noted, and so stays all that has been noted before. -/
theorem land (halike : Alike (.new model config) sim) (port : PortRef) (value : Value) :
    Attentive model sim [⟨sim, .land port value⟩] (sim.land value port) := by
  have hrealization : sim.realization = (Realization.ofModel model).1 := halike.realization
  cases hactivities : sim.realization.activitiesOf port.component with
  | nil =>
    have hsame : (sim.land value port).wakeups = sim.wakeups := by
      simp [Simulation.land, record, hactivities]
    refine ⟨⟨fun other _ hevent hactive => ?_, trivial⟩, fun other h => .inr ?_⟩
    · cases hevent
      rw [← hrealization, hactivities] at hactive
      exact absurd rfl hactive
    · unfold Awaits
      rw [hsame]
      exact h
  | cons name rest =>
    have hnoted : (sim.land value port).wakeups = Wakeup.enqueue port sim.depth sim.wakeups := by
      simp [Simulation.land, record, hactivities]
    have hawaits {other : PortRef}
        (h : ∃ wakeup ∈ Wakeup.enqueue port sim.depth sim.wakeups, wakeup.Lists other) :
        Awaits (sim.land value port) other := by
      unfold Awaits
      rw [hnoted]
      exact h
    refine ⟨⟨fun other _ hevent _ => .inr ?_, trivial⟩, fun other h => .inr ?_⟩
    · cases hevent
      exact hawaits (Wakeup.lists_enqueue port sim.depth sim.wakeups)
    · exact hawaits (Wakeup.lists_enqueue_of_lists h)

theorem work (halike : Alike (.new model config) sim) (hworks : event.Works sim)
    (hlive : (event.effect sim).halted = false) :
    Attentive model sim [⟨sim, event⟩] (event.effect sim) := by
  by_cases hland : ∃ port value, event = .land port value
  · obtain ⟨port, value, rfl⟩ := hland
    exact land halike port value
  · refine silent (fun port value hevent => hland ⟨port, value, hevent⟩) ?_
    rcases (wakeups_effect hworks).2 with hsame | ⟨_, hhalted⟩ | ⟨port, value, hevent, _⟩
    · exact hsame
    · rw [hlive] at hhalted
      cases hhalted
    · exact absurd ⟨port, value, hevent⟩ hland

theorem of_leads (leads : Leads Event.Works sim history last)
    (halike : Alike (.new model config) sim) (lived : ∀ moment ∈ history, moment.sim.halted = false)
    (hlive : last.halted = false) : Attentive model sim history last := by
  induction leads with
  | nil => exact nil _
  | @cons sim last event history hworks tail ih =>
    obtain ⟨_, hrest⟩ := List.forall_mem_cons.1 lived
    have hnext := tail.live_start hrest hlive
    exact (work halike hworks hnext).append (ih (halike.trans (.effect event sim)) hrest hlive)

/-- While a wake-up is served, nothing else that waits is forgotten. -/
theorem wake (halike : Alike (.new model config) sim) (wakeup : Wakeup)
    (lived : ∀ moment ∈ sim.wakeHistory wakeup, moment.sim.halted = false) :
    Attentive model sim (sim.wakeHistory wakeup) (sim.wake wakeup) := by
  obtain ⟨_, hactivities⟩ := List.forall_mem_cons.1 lived
  obtain ⟨hlived, hdone⟩ := List.forall_mem_append.1 hactivities
  have hawake : Attentive model sim [⟨sim, .wake wakeup⟩] ((Event.wake wakeup).effect sim) :=
    silent (fun _ _ hevent => by cases hevent) rfl
  have hresponses := of_leads (tryActivities_leads wakeup _ _)
    (halike.trans (.effect (.wake wakeup) sim)) hlived (hdone _ (List.mem_singleton.2 rfl))
  have hrest : Attentive model (tryActivities wakeup (sim.realization.activitiesOf wakeup.component)
      { sim with depth := wakeup.depth + 1 }) [⟨_, .rest sim.depth⟩] (sim.wake wakeup) :=
    @silent _ _ (.rest sim.depth) (fun _ _ hevent => by cases hevent) rfl
  exact hawake.append (hresponses.append hrest)

end Attentive

/-- A component that is woken up in a run that does not halt answers for every port on the list. -/
theorem wake_answered {model : Model} {config : Config} {sim : Simulation} {wakeup : Wakeup}
    {port : PortRef} (halike : Alike (.new model config) sim) (hlists : wakeup.Lists port)
    (lived : ∀ moment ∈ sim.wakeHistory wakeup, moment.sim.halted = false) :
    Answered ((Realization.ofModel model).1.activitiesOf port.component) port
      (sim.wakeHistory wakeup) := by
  obtain ⟨_, hactivities⟩ := List.forall_mem_cons.1 lived
  have hdone := (List.forall_mem_append.1 hactivities).2 _ (List.mem_singleton.2 rfl)
  have hrealization : sim.realization = (Realization.ofModel model).1 := halike.realization
  refine ⟨[], sim, wakeup, _, _, [], rfl, hlists, ?_⟩
  rw [← hrealization, ← hlists.1]
  by_cases hnone : sim.realization.activitiesOf wakeup.component = []
  · rw [hnone]
    exact .nil _
  · have hknown := Realization.contains_of_activitiesOf (hrealization ▸ hnone)
    exact tryActivities_responses hknown (List.ne_nil_of_mem hlists.2) _
      (halike.trans (.effect (.wake wakeup) sim)) hdone

section
variable {model : Model} {config : Config} {sim last : Simulation} {history : List Moment}

/-- A round answers for the wake-up that it serves and forgets no other. -/
theorem round_attentive {wakeup : Wakeup} {rest : List Wakeup}
    (halike : Alike (.new model config) sim) (next : sim.wakeups = wakeup :: rest)
    (lived : ∀ moment ∈ { sim with wakeups := rest }.wakeHistory wakeup, moment.sim.halted = false) :
    Attentive model sim (⟨sim, .pop⟩ :: { sim with wakeups := rest }.wakeHistory wakeup)
      ({ sim with wakeups := rest }.wake wakeup) := by
  have hpopped := halike.trans (.popped sim rest)
  obtain ⟨hlanded, hwaited⟩ := Attentive.wake hpopped wakeup lived
  refine ⟨⟨fun _ _ hevent => (by cases hevent), hlanded⟩, fun port hawaits => ?_⟩
  obtain ⟨found, hfound, hlists⟩ := hawaits
  rw [next] at hfound
  rcases List.mem_cons.1 hfound with rfl | hrest
  · exact .inl ((wake_answered hpopped hlists lived).after [_])
  · exact (hwaited port ⟨found, hrest, hlists⟩).imp_left fun hanswered => hanswered.after [_]

theorem Rounds.attentive (rounds : Rounds sim history last) (halike : Alike (.new model config) sim)
    (lived : ∀ moment ∈ history, moment.sim.halted = false) : Attentive model sim history last := by
  induction rounds with
  | nil => exact .nil _
  | @cons sim last wakeup rest history live next shallow tail ih =>
    obtain ⟨_, hlived⟩ := List.forall_mem_cons.1 lived
    obtain ⟨hserved, htail⟩ := List.forall_mem_append.1 hlived
    have hround := round_attentive halike next hserved
    have hpopped := halike.trans (.popped sim rest)
    exact hround.append (ih (hpopped.trans (wake_leads ..).alike.1) htail)

/-- A drain of a run that does not halt ends when nothing waits any more. -/
theorem Ends.attentive (ends : Ends sim history last)
    (lived : ∀ moment ∈ history, moment.sim.halted = false) (hlive : last.halted = false) :
    Attentive model sim history last := by
  cases ends with
  | settled => exact .nil _
  | stopped halted =>
    have hhalted := lived _ (List.mem_singleton.2 rfl)
    rw [show sim.halted = false from hhalted] at halted
    cases halted
  | overrun => cases hlive

theorem drain_attentive (h : Steady model config sim)
    (lived : ∀ moment ∈ sim.drainHistory, moment.sim.halted = false)
    (hlive : sim.drain.halted = false) : Attentive model sim sim.drainHistory sim.drain := by
  obtain ⟨rounds, mid, ending, hrounds, hends, hhistory⟩ := h.rounds
  rw [hhistory] at lived ⊢
  obtain ⟨_, hlived⟩ := List.forall_mem_cons.1 lived
  obtain ⟨hserved, hended⟩ := List.forall_mem_append.1 hlived
  have hmark : Attentive model sim [⟨sim, .drain⟩] sim :=
    @Attentive.silent _ _ .drain (fun _ _ hevent => by cases hevent) rfl
  exact hmark.append ((hrounds.attentive h.alike hserved).append (hends.attentive hended hlive))

theorem Driven.attentive (driven : Driven sim history last) (h : Steady model config sim)
    (lived : ∀ moment ∈ history, moment.sim.halted = false) (hlive : last.halted = false) :
    Attentive model sim history last := by
  induction driven with
  | nil => exact .nil _
  | @note sim last event later admitted silent tail ih =>
    obtain ⟨_, hrest⟩ := List.forall_mem_cons.1 lived
    have hnext := tail.leads.live_start hrest hlive
    exact (Attentive.work h.alike admitted.works hnext).append
      (ih (h.effect admitted.works) hrest hlive)
  | @react sim mid last history later course tail ih =>
    obtain ⟨hcourse, hlived⟩ := List.forall_mem_append.1 lived
    obtain ⟨hdrain, hlater⟩ := List.forall_mem_append.1 hlived
    have hmid := Steady.of_course course h
    -- The run is live at the start of the drain, which is a moment of the history.
    have hstart : mid.halted = false := hdrain ⟨mid, .drain⟩ List.mem_cons_self
    have hsettled := tail.leads.live_start hlater hlive
    exact (Attentive.of_leads course.works h.alike hcourse hstart).append
      ((drain_attentive hmid hdrain hsettled).append (ih hmid.drain hlater hlive))

end

end Simulation

/-- A source that sends to two ports of a gate. One activity of the gate needs both values, one has
nothing to perform, and one waits for a value that does not come. -/
def gate : Model where
  name := "gate"
  components := .ofList [
    ("source", {
      name := "source"
      ports := [⟨"out", .output, "source", .boolean, none⟩] }),
    ("gate", {
      name := "gate"
      ports := [⟨"left", .input, "gate", .boolean, none⟩, ⟨"right", .input, "gate", .boolean, none⟩,
        ⟨"reset", .input, "gate", .boolean, none⟩]
      activities := ["meet", "note", "clear"] })]
  activities := .ofList [
    ("meet", {
      name := "meet"
      inputs := [⟨"left", .boolean, none⟩, ⟨"right", .boolean, none⟩]
      actions := [⟨"join", none⟩] }),
    ("note", { name := "note" }),
    ("clear", { name := "clear", inputs := [⟨"reset", .boolean, none⟩] })]
  executables := .ofList [("pair", {
    name := "pair"
    params := [⟨"left", .boolean, none⟩, ⟨"right", .boolean, none⟩]
    returns := .boolean
    body := [.ret (.const (.bool true))] })]
  flows := [⟨⟨"source", "out"⟩, ⟨"gate", "left"⟩, .boolean⟩,
    ⟨⟨"source", "out"⟩, ⟨"gate", "right"⟩, .boolean⟩]
  allocations := [.executable "pair" "join"]

namespace Session

open Simulation (Moment Leads Event Answered Attentive Awaits)

variable {model : Model} {config : Config} {session : Session}

theorem Resting.attentive (h : Resting model config session) (call : Call)
    (hlive : (session.perform call).simulation.halted = false) :
    Attentive model (session.start call) (session.history call)
      (session.perform call).simulation := by
  cases call with
  | setInputs inputs => exact .nil _
  | run =>
    have hlived := (Simulation.simulate_ending session.model session.config session.inputs).lived hlive
    obtain rfl := h.model_eq
    exact (Simulation.simulate_driven ..).attentive (.new session.model session.config) hlived.1 hlive
  | sendToPort qualified value =>
    have hresume : Attentive model session.simulation [⟨session.simulation, .resume⟩]
        { session.simulation with halted := false } :=
      @Attentive.silent _ _ .resume (fun _ _ hevent => by cases hevent) rfl
    have hlived := Simulation.resumed_lived hlive
    exact hresume.append ((Simulation.resumed_driven ..).attentive
      h.steady.resumed hlived hlive)

/-- No arrival is overlooked. In a call that does not halt, on any session of a model that can be
loaded, every value that lands on a port of a component with activities is followed, before the call
ends, by a wake-up of the component with that port on its list, to which each of its activities
responds. -/
theorem landings_answered (h : load model config = .ok session) (calls : List Call) (call : Call)
    (hlive : ((session.performAll calls).perform call).simulation.halted = false) :
    let before := session.performAll calls
    Leads Event.Checked (before.start call) (before.history call) (before.perform call).simulation ∧
      ∀ earlier sim port value later,
        before.history call = earlier ++ ⟨sim, .land port value⟩ :: later →
        (Realization.ofModel model).1.activitiesOf port.component ≠ [] →
        Answered ((Realization.ofModel model).1.activitiesOf port.component) port later := by
  intro before
  have hresting := (Resting.of_load h).performAll calls
  obtain ⟨hafter, _, hleads⟩ := hresting.call call
  refine ⟨hleads, fun earlier sim port value later hsplit hactive => ?_⟩
  have hlanded := (hresting.attentive call hlive).landed
  rw [hsplit] at hlanded
  refine (hlanded.of_split port value rfl hactive).resolve_right fun hawaits => ?_
  obtain ⟨wakeup, hwaits, _⟩ := hawaits
  rw [hafter.quiet.wakeups_eq] at hwaits
  cases hwaits

theorem landings_answered_gate :
    let loaded : Session := { model := gate, inputs := {}, config := {}, simulation := .new gate {} }
    let call := Call.sendToPort "source.out" (.bool true)
    load gate {} = .ok loaded ∧ (loaded.perform call).simulation.halted = false ∧
      Simulation.landings (loaded.history call) =
        [(⟨"gate", "left"⟩, .bool true), (⟨"gate", "right"⟩, .bool true)] ∧
      ∃ earlier sim later,
        loaded.history call = earlier ++ ⟨sim, .land ⟨"gate", "left"⟩ (.bool true)⟩ :: later ∧
          Answered ["meet", "note", "clear"] ⟨"gate", "left"⟩ later := by
  intro loaded call
  have hlive : (loaded.perform call).simulation.halted = false := by decide +kernel
  have hlandings : Simulation.landings (loaded.history call) =
      [(⟨"gate", "left"⟩, .bool true), (⟨"gate", "right"⟩, .bool true)] := by decide +kernel
  have hmem : (⟨"gate", "left"⟩, .bool true) ∈ Simulation.landings (loaded.history call) := by
    rw [hlandings]
    exact List.mem_cons_self
  obtain ⟨earlier, sim, event, later, hsplit, hland⟩ := Simulation.exists_of_mem_collect hmem
  rw [Event.eq_land hland] at hsplit
  refine ⟨rfl, hlive, hlandings, earlier, sim, later, hsplit, ?_⟩
  have h := (landings_answered (show load gate {} = .ok loaded from rfl) [] call hlive).2
    earlier sim ⟨"gate", "left"⟩ (.bool true) later hsplit
  exact h (by decide +kernel)

end Session
end Archflow
