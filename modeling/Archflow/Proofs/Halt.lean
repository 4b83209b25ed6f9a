import Archflow.Proofs.Course

/-!
What a halt leaves behind. A halt drops all wake-ups, and work that starts in a run that has not
halted adds none afterwards: whenever such work ends halted, no wake-up waits.
-/
namespace Archflow.Simulation

/-- If the run has halted, no wake-up waits. -/
def Cleared (sim : Simulation) : Prop := sim.halted = true → sim.wakeups = []

theorem cleared_of_live {sim : Simulation} (h : sim.halted = false) : Cleared sim := by
  intro hhalted
  rw [h] at hhalted
  cases hhalted

theorem cleared_fail {sim : Simulation} (h : Cleared sim) (element : String) (kind : StepKind)
    (input : Option Value) (fault : Fault) : Cleared (sim.fail element kind input fault) := by
  unfold fail
  split
  · exact fun _ => rfl
  · exact h

theorem cleared_failIf {sim : Simulation} (h : Cleared sim) (element : String) (kind : StepKind)
    (input : Option Value) (outcome : Except Fault Unit) :
    Cleared (sim.failIf element kind input outcome) := by
  cases outcome with
  | ok => exact h
  | error fault => exact cleared_fail h _ _ _ _

theorem halted_lands (value : Value) (targets : List PortRef) (sim : Simulation) :
    (targets.foldl (fun sim target => sim.land value target) sim).halted = sim.halted := by
  induction targets generalizing sim with
  | nil => rfl
  | cons port rest ih => exact (ih _).trans (halted_land ..)

/-- A delivery by itself never halts the run; only its failure can. -/
theorem halted_deliver (sim : Simulation) (delivery : Delivery) :
    (sim.deliver delivery).2.halted = sim.halted := by
  rcases sim.deliver_cases delivery with
    ⟨fault, ran, hdeliver, hran, _⟩ | ⟨link, carried, targets, ran, _, hran, _, hdeliver, _⟩
  · rw [hdeliver]
    exact hran.halted
  · rw [hdeliver]
    exact (halted_lands ..).trans hran.halted

theorem cleared_serve {sim : Simulation} (h : sim.halted = false) (name : String)
    (delivery : Delivery) : Cleared (sim.serve name delivery) := by
  have hdelivered : (((Event.deliver name delivery).effect sim).deliver delivery).2.halted = false :=
    (halted_deliver ..).trans h
  exact cleared_failIf (cleared_of_live hdelivered) _ _ _ _

theorem cleared_pumpLoop (name : String) (count : Nat) {sim : Simulation} (h : sim.halted = false) :
    Cleared (pumpLoop name count sim) := by
  induction count generalizing sim with
  | zero => exact cleared_of_live h
  | succ count ih =>
    rw [pumpLoop_succ]
    cases (sim.wiring.channel name).next? with
    | none => exact cleared_of_live h
    | some next =>
      dsimp only
      split
      · exact cleared_serve h name next.1
      · next hlive => exact ih (Bool.eq_false_iff.2 hlive)

theorem cleared_transmit {sim : Simulation} (h : sim.halted = false) (index : Nat) (value : Value) :
    Cleared (sim.transmit index value) := by
  unfold transmit
  cases sim.wiring.links[index]? with
  | none => exact cleared_of_live h
  | some link =>
    dsimp only
    unfold pump
    cases Channel.begin? _ with
    | none => exact cleared_of_live h
    | some channel => exact cleared_pumpLoop _ _ h

/-- In a live run every plain event leaves a halted simulation cleared. -/
theorem cleared_effect {sim : Simulation} {event : Event} (h : Cleared sim)
    (hevent : event.Plain True sim) : Cleared (event.effect sim) := by
  obtain ⟨hplain, _, hlive⟩ := hevent
  cases event with
  | land port value => exact cleared_of_live ((halted_land ..).trans (hlive trivial rfl))
  | write | store | place | seed => exact cleared_of_live (hlive trivial rfl)
  | record => exact h
  | fail element kind input fault => exact cleared_fail h _ _ _ _
  | resume => exact cleared_of_live rfl
  | _ => cases hplain

theorem Course.cleared {sim last : Simulation} {history : List Moment}
    (course : Course Event.Reacts sim history last) (h : Cleared sim) : Cleared last := by
  induction course with
  | nil => exact h
  | event admitted _ ih =>
    rcases admitted with hplain | ⟨wakeup, activity, rfl⟩
    · exact ih (cleared_effect h hplain)
    · exact ih h
  | transmit live _ ih => exact ih (cleared_transmit live _ _)

theorem cleared_wake {sim : Simulation} (h : sim.halted = false) (wakeup : Wakeup) :
    Cleared (sim.wake wakeup) :=
  (tryActivities_course wakeup _ _).cleared (cleared_of_live h)

/-! Loops that find the run halted do no work, so one that ends live has started live. -/

theorem live_of_failIf {sim : Simulation} {element : String} {kind : StepKind} {input : Option Value}
    {outcome : Except Fault Unit} (h : (sim.failIf element kind input outcome).halted = false) :
    sim.halted = false := by
  cases outcome with
  | ok => exact h
  | error fault =>
    simp only [failIf, fail] at h
    split at h
    · cases h
    · exact h

theorem live_of_transmitAll {value : Value} {indices : List Nat} {sim : Simulation}
    (h : (transmitAll value indices sim).halted = false) : sim.halted = false := by
  cases hhalted : sim.halted with
  | false => rfl
  | true => cases indices <;> simp [transmitAll, hhalted] at h

theorem live_of_tryActivities {wakeup : Wakeup} {activities : List String} {sim : Simulation}
    (h : (tryActivities wakeup activities sim).halted = false) : sim.halted = false := by
  cases hhalted : sim.halted with
  | false => rfl
  | true => cases activities <;> simp [tryActivities, hhalted] at h

theorem live_of_drainLoop {fuel : Nat} {sim : Simulation} (h : (drainLoop fuel sim).halted = false) :
    sim.halted = false := by
  cases hhalted : sim.halted with
  | false => rfl
  | true =>
    cases fuel with
    | zero => exact hhalted.symm.trans h
    | succ fuel =>
      rw [drainLoop] at h
      cases hwakeups : sim.wakeups <;> simp [hwakeups, hhalted] at h

end Archflow.Simulation
