import Archflow.Proofs.Delivery

/-!
Episodes: the smallest pieces of a run that have a cause of their own. An episode is one event that
touches no port and no state, the seeding of the states, a value from outside, a scheduled
transmission, a send, or the firing of an activity with all that it sends. Whatever a host does to a
session is a sequence of episodes (`Resting.episodes`), so what holds of every episode holds of
every run.
-/
namespace Archflow.Simulation

/-- Where the values come from that no activity makes. -/
structure Sources where
  /-- Values that are put on ports. -/
  injected : List (String × Value) := []
  /-- Values that ports are asked to send, or else to receive. -/
  submitted : List (String × Value) := []
  protocols : List Protocol := []

namespace Sources

def Lists (values : List (String × Value)) (port : PortRef) (value : Value) : Prop :=
  ∃ qualified, (qualified, value) ∈ values ∧ PortRef.parse qualified = .ok port

def Injects (sources : Sources) (port : PortRef) (value : Value) : Prop :=
  Lists sources.injected port value

def Submits (sources : Sources) (port : PortRef) (value : Value) : Prop :=
  Lists sources.submitted port value

def Sends (sources : Sources) (symbols : SymbolTable) (port : PortRef) (value : Value) : Prop :=
  ∃ protocol ∈ sources.protocols, protocol.component = some port.component ∧
    protocol.Sends symbols port.port value

end Sources

/-- The events that touch no port, no state and no channel, and enter no arrival in the trace. A halt
drops what is on the channels. -/
def Event.isQuiet : Event → Bool
  | .record _ kind _ _ => kind != .port
  | .fail .. | .halt _ | .drain | .pop | .wake _ | .attempt .. | .rest _ | .resume => true
  | _ => false

/-- All that an episode can be. What comes from outside and what protocols send comes at depth 0;
activities fire below. -/
inductive Episode (sources : Sources) (sim : Simulation) : List Moment → Simulation → Prop
  | note {event : Event} (quiet : event.isQuiet = true) :
      Episode sources sim [⟨sim, event⟩] (event.effect sim)
  | seed : Episode sources sim [⟨sim, .seed⟩] sim.seedInitialValues
  | place {port : PortRef} {value : Value} {resolved : Port} (injected : sources.Injects port value)
      (surface : sim.depth = 0) (resolves : sim.model.resolve port = .ok resolved)
      (closed : resolved.direction.canReceive = false)
      (fits : resolved.checkPayload sim.model.symbols value = .ok ()) :
      Episode sources sim [⟨sim, .place port value⟩] ((Event.place port value).effect sim)
  | arrive {port : PortRef} {value : Value} {targets : List PortRef}
      (given : sources.Injects port value ∨ sources.Submits port value) (surface : sim.depth = 0)
      (reaches : sim.model.receiveTargets sim.limit port value = .ok targets) :
      Episode sources sim (landHistory value targets sim)
        (targets.foldl (fun sim target => sim.land value target) sim)
  | propagate {index : Nat} {link : Link} {value : Value} (surface : sim.depth = 0)
      (live : sim.halted = false) (linked : sim.wiring.links[index]? = some link)
      (held : (sim.model.port? link.source).bind Port.value = some value) :
      Episode sources sim (sim.transmitHistory index value) (sim.transmit index value)
  | send {port : PortRef} {value : Value} {chain : List PortRef}
      (given : sources.Submits port value ∨ sources.Sends sim.model.symbols port value)
      (surface : sim.depth = 0) (passes : sim.model.sendChain sim.limit port value = .ok chain) :
      Episode sources sim (sim.sendAlongHistory chain value) (sim.sendAlong chain value)
  | fire {wakeup : Wakeup} {name key : String} {firing : Firing} {exe : Executable}
      {constraint : Option Constraint} {value : Value} {chain : List PortRef} {ran stored : Simulation}
      (registered : name ∈ sim.realization.activitiesOf wakeup.component) (deep : 0 < sim.depth)
      (planned : sim.firingFor? wakeup name = .ok (some firing))
      (found : sim.model.executables.get? firing.executable = some exe)
      (constrained : sim.constraintOf firing = .ok constraint)
      (computed : sim.compute firing exe constraint = .ok (some value))
      (met : sim.checkResult firing constraint (some value) = .ok ())
      (keyed : firing.outputKey = some key) (passes : sim.resultChain firing value = .ok chain)
      (ran_eq : ran = sim.record firing.executable .exec (some (exe.callRecord firing.args)) value)
      (stored_eq : stored = (Event.store firing.component key value).effect ran) :
      Episode sources sim
        (⟨sim, .record firing.executable .exec (some (exe.callRecord firing.args)) value⟩ ::
          ⟨ran, .store firing.component key value⟩ :: stored.sendAlongHistory chain value)
        (stored.sendAlong chain value)

inductive Episodes (sources : Sources) : Simulation → List Moment → Simulation → Prop
  | nil (sim : Simulation) : Episodes sources sim [] sim
  | cons {sim mid last : Simulation} {first later : List Moment}
      (head : Episode sources sim first mid) (tail : Episodes sources mid later last) :
      Episodes sources sim (first ++ later) last

/-! The events of a transmission. -/

def Event.isCarriage : Event → Bool
  | .claim _ | .busy _ | .deliver .. | .release _ | .land .. | .fail .. => true
  | .record _ kind _ _ => kind == .exec
  | _ => false

section
variable {sim : Simulation} {moment : Moment}

theorem event_of_transformHistory {transform : Option String} {raw : Value}
    (h : moment ∈ sim.transformHistory transform raw) :
    ∃ element input output, moment.event = .record element .exec input output := by
  unfold transformHistory at h
  split at h
  · cases h
  · split at h
    · cases h
    · split at h
      · rw [List.mem_singleton.1 h]
        exact ⟨_, _, _, rfl⟩
      · cases h

theorem event_of_landHistory {value : Value} {targets : List PortRef}
    (h : moment ∈ landHistory value targets sim) : ∃ port ∈ targets, moment.event = .land port value := by
  induction targets generalizing sim with
  | nil => cases h
  | cons port rest ih =>
    rcases List.mem_cons.1 h with rfl | hrest
    · exact ⟨port, List.mem_cons_self, rfl⟩
    · obtain ⟨other, hmem, hevent⟩ := ih hrest
      exact ⟨other, List.mem_cons_of_mem _ hmem, hevent⟩

theorem isCarriage_of_failHistory {element : String} {kind : StepKind} {input : Option Value}
    {outcome : Except Fault Unit} (h : moment ∈ sim.failHistory element kind input outcome) :
    moment.event.isCarriage = true := by
  cases outcome with
  | ok => cases h
  | error fault =>
    rw [List.mem_singleton.1 h]
    rfl

theorem isCarriage_of_serveHistory {name : String} {delivery : Delivery}
    (h : moment ∈ sim.serveHistory name delivery) : moment.event.isCarriage = true := by
  have htransform (other : Simulation) (transform : Option String)
      (hmem : moment ∈ other.transformHistory transform delivery.value) :
      moment.event.isCarriage = true := by
    obtain ⟨_, _, _, hevent⟩ := event_of_transformHistory hmem
    rw [hevent]
    rfl
  rcases List.mem_cons.1 h with rfl | htail
  · rfl
  rcases List.mem_append.1 htail with hdeliver | hfail
  · rcases deliver_cases ((Event.deliver name delivery).effect sim) delivery with
      ⟨_, _, _, _, hhistory, _⟩ | ⟨_, _, _, _, _, _, _, _, hhistory, _⟩
    · rw [hhistory] at hdeliver
      exact htransform _ _ hdeliver
    · rw [hhistory] at hdeliver
      rcases List.mem_append.1 hdeliver with hcall | hland
      · exact htransform _ _ hcall
      · obtain ⟨_, _, hevent⟩ := event_of_landHistory hland
        rw [hevent]
        rfl
  · exact isCarriage_of_failHistory hfail

theorem isCarriage_of_pumpLoopHistory {name : String} {count : Nat}
    (h : moment ∈ pumpLoopHistory name count sim) : moment.event.isCarriage = true := by
  have hreleased (other : Simulation) (hmem : moment ∈ [(⟨other, .release name⟩ : Moment)]) :
      moment.event.isCarriage = true := by
    rw [List.mem_singleton.1 hmem]
    rfl
  induction count generalizing sim with
  | zero => exact hreleased sim h
  | succ count ih =>
    rw [pumpLoopHistory] at h
    cases hnext : (sim.wiring.channel name).next? with
    | none =>
      rw [hnext] at h
      exact hreleased sim h
    | some next =>
      simp only [hnext] at h
      rcases List.mem_append.1 h with hserve | hrest
      · exact isCarriage_of_serveHistory hserve
      · split at hrest
        · cases hrest
        · exact ih hrest

theorem transmitHistory_cons {index : Nat} {link : Link}
    (h : sim.wiring.links[index]? = some link) (value : Value) :
    ∃ later, sim.transmitHistory index value = ⟨sim, .transmit index value⟩ :: later ∧
      ∀ moment ∈ later, moment.event.isCarriage = true := by
  simp only [transmitHistory, h]
  refine ⟨_, rfl, fun moment hmem => ?_⟩
  unfold pumpHistory at hmem
  split at hmem
  · rw [List.mem_singleton.1 hmem]
    rfl
  · rcases List.mem_cons.1 hmem with rfl | hloop
    · rfl
    · exact isCarriage_of_pumpLoopHistory hloop

theorem event_of_transmitHistory {index : Nat} {value : Value}
    (h : moment ∈ sim.transmitHistory index value) :
    moment.event = .transmit index value ∨ moment.event.isCarriage = true := by
  cases hlink : sim.wiring.links[index]? with
  | none =>
    simp only [transmitHistory, hlink] at h
    cases h
  | some link =>
    obtain ⟨later, hhistory, hlater⟩ := transmitHistory_cons hlink value
    rw [hhistory] at h
    rcases List.mem_cons.1 h with rfl | hmem
    · exact .inl rfl
    · exact .inr (hlater moment hmem)

theorem event_of_transmitAllHistory {value : Value} {indices : List Nat}
    (h : moment ∈ transmitAllHistory value indices sim) :
    (∃ index ∈ indices, moment.event = .transmit index value) ∨ moment.event.isCarriage = true := by
  induction indices generalizing sim with
  | nil => cases h
  | cons index rest ih =>
    rw [transmitAllHistory] at h
    split at h
    · cases h
    · rcases List.mem_append.1 h with hfirst | hrest
      · refine (event_of_transmitHistory hfirst).imp_left fun hevent => ?_
        exact ⟨index, List.mem_cons_self, hevent⟩
      · refine (ih hrest).imp_left fun hother => ?_
        obtain ⟨other, hmem, hevent⟩ := hother
        exact ⟨other, List.mem_cons_of_mem _ hmem, hevent⟩

theorem event_of_writeHistory {value : Value} {chain : List PortRef}
    (h : moment ∈ writeHistory value chain sim) : ∃ port ∈ chain, moment.event = .write port value := by
  induction chain generalizing sim with
  | nil => cases h
  | cons port rest ih =>
    rcases List.mem_cons.1 h with rfl | hrest
    · exact ⟨port, List.mem_cons_self, rfl⟩
    · obtain ⟨other, hmem, hevent⟩ := ih hrest
      exact ⟨other, List.mem_cons_of_mem _ hmem, hevent⟩

end

/-! Every event of an episode is admitted. -/

theorem Event.isQuiet.checked {event : Event} (h : event.isQuiet = true) (sim : Simulation) :
    event.Checked sim := by
  cases event with
  | land | write | place => cases h
  | _ => trivial

theorem Episode.leads {sources : Sources} {sim last : Simulation} {history : List Moment}
    (episode : Episode sources sim history last) : Leads Event.Checked sim history last := by
  cases episode with
  | note quiet => exact .single (Event.isQuiet.checked quiet sim)
  | seed => exact .single trivial
  | place injected surface resolves closed fits => exact .single ⟨_, resolves, fits⟩
  | arrive given surface reaches =>
    have hlands := lands_lead False (Model.checked_of_receiveTargets reaches) False.elim
    exact hlands.mono fun _ _ h => h.2.1
  | propagate surface live linked held =>
    exact (transmit_leads ..).mono fun _ _ => Event.Carries.checked
  | send given surface passes =>
    have hsend : Course (Event.Plain False) sim _ _ :=
      sendAlong_course (Model.checked_of_sendChain passes) False.elim
    exact hsend.checked
  | @fire wakeup name key firing exe constraint value chain ran stored registered deep planned found
      constrained computed met keyed passes ran_eq stored_eq =>
    have hstored : Alike sim stored := by
      rw [stored_eq, ran_eq]
      exact (Alike.effect (.record ..) sim).trans (.effect ..)
    have hchecked : ∀ port ∈ chain, stored.model.checkSend port value = .ok () := by
      intro port hmem
      rw [Model.checkSend_congr hstored.outline]
      exact checked_of_resultChain passes port hmem
    have hsend : Course (Event.Plain False) stored _ _ := sendAlong_course hchecked False.elim
    refine .cons trivial ?_
    rw [show Event.effect (.record ..) sim = ran from ran_eq.symm]
    refine .cons trivial ?_
    rw [← stored_eq]
    exact hsend.checked

namespace Episodes

variable {sources : Sources} {sim mid last : Simulation} {history later : List Moment}

theorem single (h : Episode sources sim history last) : Episodes sources sim history last := by
  simpa using Episodes.cons h (.nil last)

theorem append (first : Episodes sources sim history mid) (second : Episodes sources mid later last) :
    Episodes sources sim (history ++ later) last := by
  induction first with
  | nil => exact second
  | cons head _ ih =>
    rw [List.append_assoc]
    exact .cons head (ih second)

theorem leads (episodes : Episodes sources sim history last) :
    Leads Event.Checked sim history last := by
  induction episodes with
  | nil => exact .nil _
  | cons head _ ih => exact head.leads.append ih

theorem note {event : Event} (h : event.isQuiet = true)
    (tail : Episodes sources (event.effect sim) later last) :
    Episodes sources sim (⟨sim, event⟩ :: later) last :=
  .cons (.note h) tail

theorem noted {event : Event} (h : event.isQuiet = true) :
    Episodes sources sim [⟨sim, event⟩] (event.effect sim) :=
  .note h (.nil _)

end Episodes

/-! Firings, and the reactions of components. -/

section
variable {sources : Sources}

theorem failIf_episodes (sim : Simulation) (element : String) (kind : StepKind) (input : Option Value)
    (outcome : Except Fault Unit) :
    Episodes sources sim (sim.failHistory element kind input outcome)
      (sim.failIf element kind input outcome) := by
  cases outcome with
  | ok => exact .nil _
  | error fault => exact .noted rfl

theorem execute_episodes {sim : Simulation} {wakeup : Wakeup} {name : String} {firing : Firing}
    (hregistered : name ∈ sim.realization.activitiesOf wakeup.component) (hdeep : 0 < sim.depth)
    (hplanned : sim.firingFor? wakeup name = .ok (some firing)) :
    Episodes sources sim (sim.executeHistory firing) (sim.execute firing).2 := by
  unfold executeHistory execute
  cases hexe : sim.model.executables.get? firing.executable with
  | none => exact .nil _
  | some exe =>
    dsimp only
    cases hconstraint : sim.constraintOf firing with
    | error fault => exact .nil _
    | ok constraint =>
      dsimp only
      cases hcompute : sim.compute firing exe constraint with
      | error fault => exact .nil _
      | ok result =>
        -- Whatever follows, the call is on record.
        have hrecord : Episodes sources sim
            [⟨sim, .record firing.executable .exec (some (exe.callRecord firing.args)) result⟩]
            (sim.record firing.executable .exec (some (exe.callRecord firing.args)) result) :=
          .noted rfl
        dsimp only
        cases hmet : checkResult _ firing constraint result with
        | error fault => exact hrecord
        | ok =>
          unfold emitHistory emit
          cases hkey : firing.outputKey with
          | none => exact hrecord
          | some key =>
            cases result with
            | none => exact hrecord
            | some value =>
              dsimp only
              cases hchain : resultChain _ firing value with
              | error fault => exact hrecord
              | ok chain =>
                exact .single (.fire hregistered hdeep hplanned hexe hconstraint hcompute hmet hkey
                  hchain rfl rfl)

theorem tryActivity_episodes {sim : Simulation} {wakeup : Wakeup} {name : String}
    (hregistered : name ∈ sim.realization.activitiesOf wakeup.component) (hdeep : 0 < sim.depth) :
    Episodes sources sim (sim.tryActivityHistory wakeup name) (sim.tryActivity wakeup name) := by
  unfold tryActivityHistory tryActivity
  cases hplanned : sim.firingFor? wakeup name with
  | error fault => exact .noted rfl
  | ok firing =>
    cases firing with
    | none => exact .nil _
    | some firing => exact (execute_episodes hregistered hdeep hplanned).append (failIf_episodes ..)

theorem Leads.depth_eq {sim last : Simulation} {history : List Moment}
    (leads : Leads Event.Works sim history last) : last.depth = sim.depth := by
  have hstep (other : Simulation) (event : Event) (hevent : event.Works other)
      (hdepth : other.depth = sim.depth) : (event.effect other).depth = sim.depth :=
    (wakeups_effect hevent).1.trans hdepth
  exact (leads.invariant hstep rfl).1

theorem tryActivities_episodes {wakeup : Wakeup} {activities : List String} {sim : Simulation}
    (hregistered : ∀ name ∈ activities, name ∈ sim.realization.activitiesOf wakeup.component)
    (hdeep : 0 < sim.depth) :
    Episodes sources sim (tryActivitiesHistory wakeup activities sim)
      (tryActivities wakeup activities sim) := by
  induction activities generalizing sim with
  | nil => exact .nil _
  | cons name rest ih =>
    obtain ⟨hname, hrest⟩ := List.forall_mem_cons.1 hregistered
    rw [tryActivitiesHistory, tryActivities]
    split
    · exact .nil _
    · next hhalted =>
      have hcourse := (sim.tryActivity_course wakeup name (Bool.eq_false_iff.2 hhalted)).works
      have htry := @tryActivity_episodes sources sim wakeup name hname hdeep
      refine .note rfl (htry.append (ih ?_ ?_))
      · rw [hcourse.alike.1.realization]
        exact hrest
      · rw [hcourse.depth_eq]
        exact hdeep

theorem wake_episodes (sim : Simulation) (wakeup : Wakeup) :
    Episodes sources sim (sim.wakeHistory wakeup) (sim.wake wakeup) := by
  have htry := @tryActivities_episodes sources wakeup _ { sim with depth := wakeup.depth + 1 }
    (fun _ hmem => hmem) (Nat.succ_pos _)
  exact .note rfl (htry.append (.noted rfl))

theorem drainLoop_episodes (fuel : Nat) (sim : Simulation) :
    Episodes sources sim (drainLoopHistory fuel sim) (drainLoop fuel sim) := by
  induction fuel generalizing sim with
  | zero => exact .nil _
  | succ fuel ih =>
    rw [drainLoopHistory, drainLoop]
    cases hwakeups : sim.wakeups with
    | nil => exact .nil _
    | cons wakeup rest =>
      have hpop : (Event.pop).effect sim = { sim with wakeups := rest } := by
        simp only [Event.effect, hwakeups, List.tail_cons]
      refine .note rfl ?_
      rw [hpop]
      dsimp only
      split
      · exact .nil _
      · split
        · exact .noted rfl
        · exact (wake_episodes ..).append (ih _)

theorem drain_episodes (sim : Simulation) : Episodes sources sim sim.drainHistory sim.drain :=
  .note rfl (drainLoop_episodes ..)

theorem depth_drainLoop (fuel : Nat) (sim : Simulation) : (drainLoop fuel sim).depth = sim.depth := by
  induction fuel generalizing sim with
  | zero => rfl
  | succ fuel ih =>
    rw [drainLoop]
    split
    · rfl
    · dsimp only
      split
      · rfl
      · split
        · rfl
        · rw [ih]
          rfl

theorem Driven.depth_eq {sim last : Simulation} {history : List Moment}
    (driven : Driven sim history last) : last.depth = sim.depth := by
  induction driven with
  | nil => rfl
  | note admitted _ _ ih => exact ih.trans (wakeups_effect admitted.works).1
  | react course _ ih => exact (ih.trans (depth_drainLoop ..)).trans course.works.depth_eq

/-! What is done to a simulation at depth 0. -/

theorem foldl_episodes {α : Type} {step : Simulation → α → Simulation}
    {history : Simulation → α → List Moment} {items : List α}
    (hdriven : ∀ sim, ∀ item ∈ items, Driven sim (history sim item) (step sim item))
    (h : ∀ sim, ∀ item ∈ items, sim.depth = 0 →
      Episodes sources sim (history sim item) (step sim item))
    {sim : Simulation} (hsurface : sim.depth = 0) :
    Episodes sources sim (foldHistory step history items sim) (items.foldl step sim) := by
  induction items generalizing sim with
  | nil => exact .nil _
  | cons item rest ih =>
    have hnext := (hdriven sim item List.mem_cons_self).depth_eq.trans hsurface
    refine (h sim item List.mem_cons_self hsurface).append (ih ?_ ?_ hnext)
    · exact fun sim other hmem => hdriven sim other (List.mem_cons_of_mem _ hmem)
    · exact fun sim other hmem => h sim other (List.mem_cons_of_mem _ hmem)

theorem unlessHalted_episodes {sim : Simulation} {step : Simulation → Simulation}
    {history : Simulation → List Moment}
    (h : sim.halted = false → Episodes sources sim (history sim) (step sim)) :
    Episodes sources sim (sim.unlessHaltedHistory history) (sim.unlessHalted step) := by
  unfold unlessHaltedHistory unlessHalted
  split
  · exact .nil _
  · next hhalted => exact h (Bool.eq_false_iff.2 hhalted)

theorem foldHistory_quiet {α : Type} {event : α → Event} (hquiet : ∀ item, (event item).isQuiet = true)
    (items : List α) (sim : Simulation) :
    Episodes sources sim
      (foldHistory (fun sim item => (event item).effect sim) (fun sim item => [⟨sim, event item⟩])
        items sim)
      (items.foldl (fun sim item => (event item).effect sim) sim) := by
  induction items generalizing sim with
  | nil => exact .nil _
  | cons item rest ih => exact .note (hquiet item) (ih _)

theorem report_episodes (sim : Simulation) : Episodes sources sim sim.reportHistory sim.reportProblems :=
  @foldHistory_quiet sources Fault (fun fault => .fail "allocation" .log none fault) (fun _ => rfl) _ _

theorem receive_episodes {sim : Simulation} {port : PortRef} {value : Value}
    (hgiven : sources.Injects port value ∨ sources.Submits port value) (hsurface : sim.depth = 0) :
    Episodes sources sim (sim.receiveHistory port value) (sim.receive port value).2 := by
  unfold receiveHistory receive
  cases htargets : sim.model.receiveTargets sim.limit port value with
  | error fault => exact .nil _
  | ok targets => exact .single (.arrive hgiven hsurface htargets)

theorem injectNamed_episodes {sim : Simulation} {qualified : String} {value : Value}
    (hlisted : (qualified, value) ∈ sources.injected) (hsurface : sim.depth = 0) :
    Episodes sources sim (sim.injectNamedHistory qualified value)
      (sim.injectNamed qualified value).2 := by
  unfold injectNamedHistory injectNamed
  cases hparse : PortRef.parse qualified with
  | error fault => exact .nil _
  | ok port =>
    have hinjected : sources.Injects port value := ⟨qualified, hlisted, hparse⟩
    dsimp only [injectHistory, inject]
    cases hresolve : sim.model.resolve port with
    | error fault => exact .nil _
    | ok resolved =>
      dsimp only
      cases hreceive : resolved.direction.canReceive with
      | true => exact receive_episodes (.inl hinjected) hsurface
      | false =>
        cases hpayload : resolved.checkPayload sim.model.symbols value with
        | error fault => exact .nil _
        | ok => exact .single (.place hinjected hsurface hresolve hreceive hpayload)

theorem seedInput_episodes {sim : Simulation} {qualified : String} {value : Value}
    (hlisted : (qualified, value) ∈ sources.injected) (hsurface : sim.depth = 0) :
    Episodes sources sim (sim.seedInputHistory qualified value) (sim.seedInput qualified value) :=
  ((injectNamed_episodes hlisted hsurface).append (failIf_episodes ..)).append (drain_episodes _)

theorem seedInputs_episodes {sim : Simulation} {ports : List (String × Value)}
    (hlisted : ∀ input ∈ ports, input ∈ sources.injected) (hsurface : sim.depth = 0) :
    Episodes sources sim (sim.seedInputsHistory ports) (Session.seedInputs sim ports) :=
  foldl_episodes
    (fun sim input _ => unlessHalted_driven (sim.seedInput_driven input.1 input.2))
    (fun _ input hmem hdepth => unlessHalted_episodes fun _ =>
      seedInput_episodes (hlisted input hmem) hdepth) hsurface

theorem propagate_episodes {sim : Simulation} (hsurface : sim.depth = 0) (hlive : sim.halted = false)
    (index : Nat) : Episodes sources sim (sim.propagateHistory index) (sim.propagate index) := by
  unfold propagateHistory propagate
  split
  · exact .nil _
  · cases hlink : sim.wiring.links[index]? with
    | none => exact .nil _
    | some link =>
      dsimp only [Option.bind_some]
      cases hheld : (sim.model.port? link.source).bind Port.value with
      | none => exact .nil _
      | some value => exact .cons (.propagate hsurface hlive hlink hheld) (drain_episodes _)

theorem propagateEach_episodes {sim : Simulation} (hsurface : sim.depth = 0) (indices : List Nat) :
    Episodes sources sim
      (foldHistory (fun sim index => sim.unlessHalted (·.propagate index))
        (fun sim index => sim.unlessHaltedHistory (·.propagateHistory index)) indices sim)
      (indices.foldl (fun sim index => sim.unlessHalted (·.propagate index)) sim) :=
  foldl_episodes
    (fun sim index _ => unlessHalted_driven (sim.propagate_driven index))
    (fun _ index _ hdepth => unlessHalted_episodes fun hlive => propagate_episodes hdepth hlive index)
    hsurface

theorem send_episodes {sim : Simulation} {port : PortRef} {value : Value}
    (hgiven : sources.Submits port value ∨ sources.Sends sim.model.symbols port value)
    (hsurface : sim.depth = 0) :
    Episodes sources sim (sim.sendHistory port value) (sim.send port value).2 := by
  unfold sendHistory send
  cases hchain : sim.model.sendChain sim.limit port value with
  | error fault => exact .nil _
  | ok chain => exact .single (.send hgiven hsurface hchain)

theorem protocol_episodes {sim : Simulation} {protocol : Protocol} {component : String}
    (hmem : protocol ∈ sources.protocols) (hcomponent : protocol.component = some component)
    (hsurface : sim.depth = 0) :
    Episodes sources sim (sim.protocolHistory protocol component)
      (sim.runProtocol protocol component) := by
  have hmap := Protocol.Machine.run_map protocol sim.model.symbols (loggedAccess_maps component)
    sim.config.protocolIterations {} (sim, [])
  -- Every send of the protocol adds episodes, and the simulation comes back to depth 0.
  have hsends := @Protocol.Machine.run_preserves _ (loggedAccess component)
    (fun store => Episodes sources sim store.2 store.1 ∧ store.1.depth = 0) protocol
    sim.model.symbols ?_ sim.config.protocolIterations {} (sim, []) ⟨.nil sim, hsurface⟩
  · unfold protocolHistory runProtocol
    rw [hmap]
    generalize Protocol.Machine.run {} protocol (loggedAccess component) sim.model.symbols
      sim.config.protocolIterations (sim, []) = run at hsends ⊢
    obtain ⟨outcome, machine, store⟩ := run
    refine (hsends.1.append ?_).append (unlessHalted_episodes fun _ => failIf_episodes ..)
    exact @foldHistory_quiet sources Protocol.Result (fun result => .record protocol.name .protocol
      (some (.text s!"{result.operation.text} {result.port}")) (some result.value)) (fun _ => rfl) _ _
  · rintro store port value next hsent hsend ⟨hepisodes, hdepth⟩
    obtain ⟨hlive, rfl⟩ := loggedAccess_send hsend
    have hsymbols := hepisodes.leads.alike.1.declared Model.symbols fun _ => rfl
    have hgiven : sources.Sends store.1.model.symbols ⟨component, port⟩ value := by
      rw [hsymbols]
      exact ⟨protocol, hmem, hcomponent, hsent⟩
    have hcourse := send_course store.1 ⟨component, port⟩ value fun _ : True => hlive
    refine ⟨hepisodes.append ((send_episodes (.inr hgiven) hdepth).append (drain_episodes _)), ?_⟩
    exact (depth_drainLoop ..).trans (hcourse.works.depth_eq.trans hdepth)

theorem protocols_episodes {sim : Simulation}
    (hlisted : ∀ protocol ∈ sim.model.protocols.items, protocol ∈ sources.protocols)
    (hsurface : sim.depth = 0) : Episodes sources sim sim.protocolsHistory sim.runProtocols := by
  refine foldl_episodes (fun sim protocol _ => ?_) (fun sim protocol hmem hdepth => ?_) hsurface
  · cases protocol.component with
    | none => exact .nil _
    | some component => exact unlessHalted_driven fun _ => sim.protocol_driven protocol component
  · cases hcomponent : protocol.component with
    | none => exact .nil _
    | some component =>
      exact unlessHalted_episodes fun _ => protocol_episodes (hlisted protocol hmem) hcomponent hdepth

theorem orphan_episodes (sim : Simulation) (supplied : Table (List Value)) (name : String) :
    Episodes sources sim (sim.orphanHistory supplied name) (sim.runOrphan supplied name) := by
  unfold orphanHistory runOrphan
  cases sim.model.executables.get? name with
  | none => exact .nil _
  | some exe =>
    dsimp only
    cases exe.run ((supplied.get? name).getD (exe.defaultArguments sim.model.symbols))
      sim.model.symbols with
    | error fault => exact .noted rfl
    | ok output => exact .noted rfl

theorem orphans_episodes {sim : Simulation} (hsurface : sim.depth = 0)
    (supplied : Table (List Value)) :
    Episodes sources sim (sim.orphansHistory supplied) (sim.runOrphans supplied) :=
  foldl_episodes
    (fun sim name _ => unlessHalted_driven fun _ => sim.orphan_driven supplied name)
    (fun sim name _ _ => unlessHalted_episodes fun _ => sim.orphan_episodes supplied name) hsurface

theorem submit_episodes {sim : Simulation} {qualified : String} {value : Value}
    (hlisted : (qualified, value) ∈ sources.submitted) (hsurface : sim.depth = 0) :
    Episodes sources sim (sim.submitHistory qualified value) (sim.submit qualified value).2 := by
  unfold submitHistory submit
  cases hparse : PortRef.parse qualified with
  | error fault => exact .nil _
  | ok port =>
    have hsubmitted : sources.Submits port value := ⟨qualified, hlisted, hparse⟩
    dsimp only
    cases sim.model.resolve port with
    | error fault => exact .nil _
    | ok resolved =>
      dsimp only
      split
      · exact send_episodes (.inl hsubmitted) hsurface
      · exact receive_episodes (.inr hsubmitted) hsurface

theorem sendToPort_episodes {sim : Simulation} {qualified : String} {value : Value}
    (hlisted : (qualified, value) ∈ sources.submitted) (hsurface : sim.depth = 0) :
    Episodes sources sim (sim.sendToPortHistory qualified value) (sim.sendToPort qualified value).2 := by
  have hsubmit := @submit_episodes sources { sim with halted := false } qualified value hlisted hsurface
  unfold sendToPortHistory sendToPort
  dsimp only
  refine .note rfl ?_
  cases hsubmitted : submit { sim with halted := false } qualified value with
  | mk outcome submitted =>
    rw [hsubmitted] at hsubmit
    refine hsubmit.append ?_
    cases outcome with
    | error fault => exact .noted rfl
    | ok => exact drain_episodes _

theorem propagated_episodes {model : Model} {config : Config} {ports : List (String × Value)}
    (hlisted : ∀ input ∈ ports, input ∈ sources.injected) :
    Episodes sources (new model config) (propagatedHistory model config ports)
      (propagated model config ports) := by
  have hreported : (new model config).reportProblems.seedInitialValues.depth = 0 :=
    (reportProblems_driven (new model config)).depth_eq
  have hseeded : Episodes sources (new model config) (seededHistory model config ports)
      (seeded model config ports) :=
    (report_episodes _).append (.cons .seed (seedInputs_episodes hlisted hreported))
  have hsurface := (seeded_driven model config ports).depth_eq
  exact hseeded.append (unlessHalted_episodes fun _ => propagateEach_episodes hsurface _)

theorem simulate_episodes (model : Model) (config : Config) (inputs : Inputs) :
    Episodes { injected := inputs.ports, protocols := model.protocols.items } (new model config)
      (simulateHistory model config inputs) (Session.simulate model config inputs) := by
  have hpropagated := @propagated_episodes
    { injected := inputs.ports, protocols := model.protocols.items } model config inputs.ports
    fun _ hmem => hmem
  have hsurface := (propagated_driven model config inputs.ports).depth_eq
  have hprotocols : (propagated model config inputs.ports).model.protocols = model.protocols :=
    hpropagated.leads.alike.1.declared Model.protocols fun _ => rfl
  have hcommunicated := (unlessHalted_driven fun _ =>
    protocols_driven (propagated model config inputs.ports)).depth_eq.trans hsurface
  rw [simulateHistory_eq, simulate_eq]
  refine hpropagated.append ((unlessHalted_episodes fun _ => ?_).append
    (unlessHalted_episodes fun _ => orphans_episodes hcommunicated inputs.executables))
  refine protocols_episodes (fun protocol hmem => ?_) hsurface
  rw [← hprotocols]
  exact hmem

end
end Archflow.Simulation

namespace Archflow.Session

open Simulation (Sources Episodes)

def sources (session : Session) : Call → Sources
  | .setInputs _ => {}
  | .run => { injected := session.inputs.ports, protocols := session.model.protocols.items }
  | .sendToPort qualified value => { submitted := [(qualified, value)] }

variable {model : Model} {config : Config} {session : Session}

theorem Resting.begins (h : Resting model config session) (call : Call) :
    Simulation.Alike (.new model config) (session.start call) ∧ (session.start call).wiring.Idle := by
  cases call with
  | run =>
    obtain ⟨rfl, rfl, _, _⟩ := h
    exact ⟨.refl _, (quiet_new ..).idle⟩
  | setInputs inputs => exact ⟨h.steady.alike, h.quiet.idle⟩
  | sendToPort qualified value => exact ⟨h.steady.alike, h.quiet.idle⟩

/-- Every call is a sequence of episodes. -/
theorem Resting.episodes (h : Resting model config session) (call : Call) :
    Episodes (session.sources call) (session.start call) (session.history call)
      (session.perform call).simulation := by
  cases call with
  | setInputs inputs => exact .nil _
  | run => exact Simulation.simulate_episodes session.model session.config session.inputs
  | sendToPort qualified value =>
    exact Simulation.sendToPort_episodes (List.mem_singleton.2 rfl) h.steady.depth_eq

end Archflow.Session
