import Archflow.Proofs.History

/-!
Histories of sends and reactions. All work between two changes of the cascade depth is a course:
plain events and whole transmissions, one after the other, and no transmission starts after a halt.
-/
namespace Archflow.Simulation

/-- The events of a reaction: plain ones, and the attempts at activities. -/
def Event.Reacts (sim : Simulation) (event : Event) : Prop :=
  event.Plain True sim ∨ ∃ wakeup activity, event = .attempt wakeup activity

theorem Event.Plain.reacts {sim : Simulation} {event : Event} (h : event.Plain True sim) :
    event.Reacts sim := .inl h

/-- Admitted events and whole transmissions, one after the other. -/
inductive Course (admits : Simulation → Event → Prop) :
    Simulation → List Moment → Simulation → Prop
  | nil (sim : Simulation) : Course admits sim [] sim
  | event {sim last : Simulation} {event : Event} {history : List Moment}
      (admitted : admits sim event) (tail : Course admits (event.effect sim) history last) :
      Course admits sim (⟨sim, event⟩ :: history) last
  | transmit {sim last : Simulation} {index : Nat} {value : Value} {history : List Moment}
      (live : sim.halted = false) (tail : Course admits (sim.transmit index value) history last) :
      Course admits sim (sim.transmitHistory index value ++ history) last

namespace Course

variable {admits : Simulation → Event → Prop} {sim mid last : Simulation}
  {history later : List Moment} {event : Event}

theorem single (h : admits sim event) : Course admits sim [⟨sim, event⟩] (event.effect sim) :=
  .event h (.nil _)

theorem append (first : Course admits sim history mid) (second : Course admits mid later last) :
    Course admits sim (history ++ later) last := by
  induction first with
  | nil => exact second
  | event admitted _ ih => exact .event admitted (ih second)
  | transmit live _ ih =>
    rw [List.append_assoc]
    exact .transmit live (ih second)

theorem mono {wider : Simulation → Event → Prop} (h : ∀ sim event, admits sim event → wider sim event)
    (course : Course admits sim history last) : Course wider sim history last := by
  induction course with
  | nil => exact .nil _
  | event admitted _ ih => exact .event (h _ _ admitted) ih
  | transmit live _ ih => exact .transmit live ih

theorem of_leads (leads : Leads admits sim history last) : Course admits sim history last := by
  induction leads with
  | nil => exact .nil _
  | cons admitted _ ih => exact .event admitted ih

theorem leads {wider : Simulation → Event → Prop} (h : ∀ sim event, admits sim event → wider sim event)
    (hcarries : ∀ sim event, event.Carries sim → wider sim event)
    (course : Course admits sim history last) : Leads wider sim history last := by
  induction course with
  | nil => exact .nil _
  | event admitted _ ih => exact .cons (h _ _ admitted) ih
  | transmit _ _ ih => exact ((transmit_leads ..).mono hcarries).append ih

end Course

/-! Histories. -/

def writeHistory (value : Value) : List PortRef → Simulation → List Moment
  | [], _ => []
  | port :: rest, sim =>
      ⟨sim, .write port value⟩ ::
        writeHistory value rest { sim with model := sim.model.setPort port value }

def transmitAllHistory (value : Value) : List Nat → Simulation → List Moment
  | [], _ => []
  | index :: rest, sim =>
      if sim.halted then []
      else sim.transmitHistory index value ++ transmitAllHistory value rest (sim.transmit index value)

def sendAlongHistory (sim : Simulation) (chain : List PortRef) (value : Value) : List Moment :=
  let model := chain.foldl (fun model port => model.setPort port value) sim.model
  writeHistory value chain sim ++
    transmitAllHistory value (chain.flatMap sim.wiring.linksFrom) { sim with model }

def sendHistory (sim : Simulation) (port : PortRef) (value : Value) : List Moment :=
  match sim.model.sendChain sim.limit port value with
  | .error _ => []
  | .ok chain => sim.sendAlongHistory chain value

def emitHistory (sim : Simulation) (firing : Firing) (result : Option Value) : List Moment :=
  match firing.outputKey, result with
  | some key, some value =>
    match sim.resultChain firing value with
    | .error _ => []
    | .ok chain =>
        let model := sim.model.setState firing.component key value
        ⟨sim, .store firing.component key value⟩ :: { sim with model }.sendAlongHistory chain value
  | _, _ => []

def executeHistory (sim : Simulation) (firing : Firing) : List Moment :=
  match sim.model.executables.get? firing.executable with
  | none => []
  | some exe =>
    match sim.constraintOf firing with
    | .error _ => []
    | .ok constraint =>
      match sim.compute firing exe constraint with
      | .error _ => []
      | .ok result =>
        let input := some (exe.callRecord firing.args)
        let ran := sim.record firing.executable .exec input result
        ⟨sim, .record firing.executable .exec input result⟩ ::
          match ran.checkResult firing constraint result with
          | .error _ => []
          | .ok () => ran.emitHistory firing result

def tryActivityHistory (sim : Simulation) (wakeup : Wakeup) (activity : String) : List Moment :=
  match sim.firingFor? wakeup activity with
  | .error fault => [⟨sim, .fail activity .log none fault⟩]
  | .ok none => []
  | .ok (some firing) =>
      let (outcome, after) := sim.execute firing
      let input := (after.model.executables.get? firing.executable).map (·.callRecord firing.args)
      sim.executeHistory firing ++ after.failHistory firing.executable .exec input outcome

def tryActivitiesHistory (wakeup : Wakeup) : List String → Simulation → List Moment
  | [], _ => []
  | activity :: rest, sim =>
      if sim.halted then []
      else ⟨sim, .attempt wakeup activity⟩ :: (sim.tryActivityHistory wakeup activity ++
        tryActivitiesHistory wakeup rest (sim.tryActivity wakeup activity))

def wakeHistory (sim : Simulation) (wakeup : Wakeup) : List Moment :=
  let activities := sim.realization.activitiesOf wakeup.component
  let awake := { sim with depth := wakeup.depth + 1 }
  ⟨sim, .wake wakeup⟩ :: (tryActivitiesHistory wakeup activities awake ++
    [⟨tryActivities wakeup activities awake, .rest sim.depth⟩])

def drainLoopHistory : (fuel : Nat) → Simulation → List Moment
  | 0, _ => []
  | fuel + 1, sim =>
    match sim.wakeups with
    | [] => []
    | wakeup :: wakeups =>
        let popped := { sim with wakeups }
        ⟨sim, .pop⟩ ::
          if popped.halted then []
          else if popped.limit < wakeup.depth then
            [⟨popped, .halt (.cascadeLimitExceeded popped.limit)⟩]
          else popped.wakeHistory wakeup ++ drainLoopHistory fuel (popped.wake wakeup)

def drainHistory (sim : Simulation) : List Moment :=
  ⟨sim, .drain⟩ :: drainLoopHistory sim.drainBound sim

end Archflow.Simulation

namespace Archflow.Model

theorem checked_of_chainFrom {model : Model} {limit budget : Nat} {ref : PortRef} {value : Value}
    {chain : List PortRef} (h : model.chainFrom limit value budget ref = .ok chain) :
    ∀ port ∈ chain, model.checkSend port value = .ok () := by
  induction budget generalizing ref chain with
  | zero => cases h
  | succ budget ih =>
    rw [chainFrom] at h
    cases hcheck : model.checkSend ref value with
    | error fault =>
      rw [hcheck] at h
      cases h
    | ok =>
      rw [hcheck] at h
      cases houter : model.delegatingOuter? ref with
      | none =>
        simp only [houter] at h
        cases h
        simpa using hcheck
      | some outer =>
        simp only [houter] at h
        cases hrest : model.chainFrom limit value budget outer with
        | error fault =>
          rw [hrest] at h
          cases h
        | ok rest =>
          rw [hrest] at h
          cases h
          simpa [hcheck] using ih hrest

theorem checked_of_sendChain {model : Model} {limit : Nat} {ref : PortRef} {value : Value}
    {chain : List PortRef} (h : model.sendChain limit ref value = .ok chain) :
    ∀ port ∈ chain, model.checkSend port value = .ok () :=
  checked_of_chainFrom h

end Archflow.Model

namespace Archflow.Simulation

variable {live : Prop}

theorem writes_course {value : Value} {chain : List PortRef} {sim : Simulation}
    (h : ∀ port ∈ chain, sim.model.checkSend port value = .ok ())
    (hlive : live → sim.halted = false) :
    Course (Event.Plain live) sim (writeHistory value chain sim)
      { sim with model := chain.foldl (fun model port => model.setPort port value) sim.model } := by
  induction chain generalizing sim with
  | nil => exact .nil _
  | cons port rest ih =>
    refine .event ⟨rfl, h port (by simp), fun hl _ => hlive hl⟩ (ih (fun other hmem => ?_) hlive)
    change (sim.model.setPort port value).checkSend other value = .ok ()
    rw [Model.checkSend_congr (sim.model.outline_setPort port value)]
    exact h other (by simp [hmem])

theorem transmitAll_course (value : Value) (indices : List Nat) (sim : Simulation) :
    Course (Event.Plain live) sim (transmitAllHistory value indices sim)
      (transmitAll value indices sim) := by
  induction indices generalizing sim with
  | nil => exact .nil _
  | cons index rest ih =>
    rw [transmitAllHistory, transmitAll]
    split
    · exact .nil _
    · next hhalted => exact .transmit (Bool.eq_false_iff.2 hhalted) (ih _)

theorem sendAlong_course {value : Value} {chain : List PortRef} {sim : Simulation}
    (h : ∀ port ∈ chain, sim.model.checkSend port value = .ok ())
    (hlive : live → sim.halted = false) :
    Course (Event.Plain live) sim (sim.sendAlongHistory chain value) (sim.sendAlong chain value) :=
  (writes_course h hlive).append (transmitAll_course ..)

theorem send_course (sim : Simulation) (port : PortRef) (value : Value)
    (hlive : live → sim.halted = false) :
    Course (Event.Plain live) sim (sim.sendHistory port value) (sim.send port value).2 := by
  unfold sendHistory send
  cases hchain : sim.model.sendChain sim.limit port value with
  | error fault => exact .nil _
  | ok chain => exact sendAlong_course (Model.checked_of_sendChain hchain) hlive

theorem send_error {sim rejected : Simulation} {port : PortRef} {value : Value} {fault : Fault}
    (h : sim.send port value = (.error fault, rejected)) :
    rejected = sim ∧ sim.sendHistory port value = [] := by
  unfold send at h
  unfold sendHistory
  cases hchain : sim.model.sendChain sim.limit port value with
  | ok chain => simp [hchain] at h
  | error other =>
    rw [hchain] at h
    cases h
    exact ⟨rfl, rfl⟩

theorem checked_of_resultChain {sim : Simulation} {firing : Firing} {value : Value}
    {chain : List PortRef} (h : sim.resultChain firing value = .ok chain) :
    ∀ port ∈ chain, sim.model.checkSend port value = .ok () := by
  unfold resultChain at h
  cases hport : firing.outputPort with
  | none =>
    rw [hport] at h
    cases h
    simp
  | some port =>
    rw [hport] at h
    exact Model.checked_of_sendChain h

theorem emit_course (sim : Simulation) (firing : Firing) (result : Option Value)
    (hlive : sim.halted = false) :
    Course (Event.Plain True) sim (sim.emitHistory firing result) (sim.emit firing result).2 := by
  unfold emitHistory emit
  cases firing.outputKey with
  | none => exact .nil _
  | some key =>
    cases result with
    | none => exact .nil _
    | some value =>
      dsimp only
      cases hchain : sim.resultChain firing value with
      | error fault => exact .nil _
      | ok chain =>
        refine .event ⟨rfl, trivial, fun _ _ => hlive⟩ (sendAlong_course (fun port hmem => ?_) ?_)
        · change (sim.model.setState firing.component key value).checkSend port value = .ok ()
          rw [Model.checkSend_congr (sim.model.outline_setState ..)]
          exact checked_of_resultChain hchain port hmem
        · exact fun _ => hlive

theorem execute_course (sim : Simulation) (firing : Firing) (hlive : sim.halted = false) :
    Course (Event.Plain True) sim (sim.executeHistory firing) (sim.execute firing).2 := by
  unfold executeHistory execute
  cases sim.model.executables.get? firing.executable with
  | none => exact .nil _
  | some exe =>
    cases sim.constraintOf firing with
    | error fault => exact .nil _
    | ok constraint =>
      dsimp only
      cases sim.compute firing exe constraint with
      | error fault => exact .nil _
      | ok result =>
        refine .event ⟨rfl, trivial, fun _ h => by cases h⟩ ?_
        dsimp only
        cases checkResult _ firing constraint result with
        | error fault => exact .nil _
        | ok => exact emit_course _ firing result hlive

theorem tryActivity_course (sim : Simulation) (wakeup : Wakeup) (activity : String)
    (hlive : sim.halted = false) :
    Course (Event.Plain True) sim (sim.tryActivityHistory wakeup activity)
      (sim.tryActivity wakeup activity) := by
  unfold tryActivityHistory tryActivity
  cases sim.firingFor? wakeup activity with
  | error fault => exact .single ⟨rfl, trivial, fun _ h => by cases h⟩
  | ok firing =>
    cases firing with
    | none => exact .nil _
    | some firing => exact (sim.execute_course firing hlive).append (.of_leads (failIf_leads True ..))

theorem tryActivities_course (wakeup : Wakeup) (activities : List String) (sim : Simulation) :
    Course Event.Reacts sim (tryActivitiesHistory wakeup activities sim)
      (tryActivities wakeup activities sim) := by
  induction activities generalizing sim with
  | nil => exact .nil _
  | cons activity rest ih =>
    rw [tryActivitiesHistory, tryActivities]
    split
    · exact .nil _
    · next hhalted =>
      have htry := sim.tryActivity_course wakeup activity (Bool.eq_false_iff.2 hhalted)
      have hreacts := htry.mono fun _ _ => Event.Plain.reacts
      exact .event (.inr ⟨wakeup, activity, rfl⟩) (hreacts.append (ih _))

/-! Every history of a cascade leads from its first to its last state. -/

theorem Event.Carries.checked {sim : Simulation} {event : Event} (h : event.Carries sim) :
    event.Checked sim := h.1

theorem Event.Reacts.checked {sim : Simulation} {event : Event} (h : event.Reacts sim) :
    event.Checked sim := by
  rcases h with h | ⟨wakeup, activity, rfl⟩
  · exact h.2.1
  · trivial

theorem Course.checked {sim last : Simulation} {history : List Moment}
    (course : Course (Event.Plain live) sim history last) : Leads Event.Checked sim history last :=
  course.leads (fun _ _ h => h.2.1) fun _ _ => Event.Carries.checked

theorem wake_leads (sim : Simulation) (wakeup : Wakeup) :
    Leads Event.Checked sim (sim.wakeHistory wakeup) (sim.wake wakeup) := by
  have hactivities := (tryActivities_course wakeup (sim.realization.activitiesOf wakeup.component)
    { sim with depth := wakeup.depth + 1 }).leads (fun _ _ => Event.Reacts.checked)
    (fun _ _ => Event.Carries.checked)
  exact .cons trivial (hactivities.append (.single trivial))

theorem drainLoop_leads (fuel : Nat) (sim : Simulation) :
    Leads Event.Checked sim (drainLoopHistory fuel sim) (drainLoop fuel sim) := by
  induction fuel generalizing sim with
  | zero => exact .nil _
  | succ fuel ih =>
    rw [drainLoopHistory, drainLoop]
    cases hwakeups : sim.wakeups with
    | nil => exact .nil _
    | cons wakeup rest =>
      have hpop : (Event.pop).effect sim = { sim with wakeups := rest } := by
        simp only [Event.effect, hwakeups, List.tail_cons]
      refine .cons trivial ?_
      rw [hpop]
      dsimp only
      split
      · exact .nil _
      · split
        · exact .single trivial
        · exact (wake_leads ..).append (ih _)

theorem drain_leads (sim : Simulation) : Leads Event.Checked sim sim.drainHistory sim.drain :=
  .cons trivial (drainLoop_leads ..)

end Archflow.Simulation
