import Archflow.Proofs.Driven
import Archflow.Proofs.Halt
import Archflow.Proofs.Layers
import Mathlib.Data.List.Perm.Subperm
import Mathlib.Data.List.ProdSigma

/-!
Cascades: the rounds in which the waiting wake-ups are worked off. The queue grows while it is
drained, but everything that a round adds lies one level deeper than the wake-up it serves, so no
component is woken up twice at one depth. This bounds the rounds of every drain, on cyclic models
too.
-/
namespace Archflow.Simulation

def Event.wake? : Event → Option Wakeup
  | .wake wakeup => some wakeup
  | _ => none

def Event.attempt? : Event → Option (Wakeup × String)
  | .attempt wakeup activity => some (wakeup, activity)
  | _ => none

def woken (history : List Moment) : List Wakeup := collect Event.wake? history

/-- The attempts at activities in a history, each with the wake-up that gives rise to it. -/
def attempted (history : List Moment) : List (Wakeup × String) := collect Event.attempt? history

theorem Event.wake?_eq_none {sim : Simulation} {event : Event} (h : event.Works sim) :
    event.wake? = none := by
  cases event with
  | wake => cases h
  | _ => rfl

theorem Event.attempt?_eq_none {sim : Simulation} {event : Event} (h : event.Carries sim) :
    event.attempt? = none := by
  cases event with
  | attempt => rcases h.2 with h | h <;> cases h
  | _ => rfl

/-! What serving one wake-up does. -/

theorem tryActivities_leads (wakeup : Wakeup) (activities : List String) (sim : Simulation) :
    Leads Event.Works sim (tryActivitiesHistory wakeup activities sim)
      (tryActivities wakeup activities sim) :=
  (tryActivities_course wakeup activities sim).leads (fun _ _ => Event.Reacts.works)
    fun _ _ => Event.Carries.works

theorem woken_wakeHistory (sim : Simulation) (wakeup : Wakeup) :
    woken (sim.wakeHistory wakeup) = [wakeup] := by
  have hquiet : woken (tryActivitiesHistory wakeup (sim.realization.activitiesOf wakeup.component)
      { sim with depth := wakeup.depth + 1 }) = [] :=
    collect_eq_nil fun moment hmem =>
      Event.wake?_eq_none ((tryActivities_leads ..).admits_of_mem moment hmem)
  unfold woken at hquiet ⊢
  simp [wakeHistory, hquiet, Event.wake?]

theorem attempted_tryActivities (wakeup : Wakeup) (activities : List String) (sim : Simulation) :
    (attempted (tryActivitiesHistory wakeup activities sim)).Sublist
      (activities.map fun activity => (wakeup, activity)) := by
  induction activities generalizing sim with
  | nil => exact .slnil
  | cons activity rest ih =>
    rw [tryActivitiesHistory]
    split
    · exact List.nil_sublist _
    · next hhalted =>
      have hcourse := sim.tryActivity_course wakeup activity (Bool.eq_false_iff.2 hhalted)
      have hcarries : Leads Event.Carries sim _ _ :=
        hcourse.leads (fun _ _ => Event.Plain.carries) fun _ _ h => h
      have hquiet : attempted (sim.tryActivityHistory wakeup activity) = [] :=
        collect_eq_nil fun moment hmem => Event.attempt?_eq_none (hcarries.admits_of_mem moment hmem)
      unfold attempted at hquiet ih ⊢
      rw [collect_cons, collect_append, hquiet]
      exact (ih _).cons_cons (wakeup, activity)

/-- A wake-up that is served makes at most one attempt at each activity of its component. -/
theorem attempted_wakeHistory (sim : Simulation) (wakeup : Wakeup) :
    (attempted (sim.wakeHistory wakeup)).Sublist
      ((sim.realization.activitiesOf wakeup.component).map fun activity => (wakeup, activity)) := by
  have hactivities := attempted_tryActivities wakeup (sim.realization.activitiesOf wakeup.component)
    { sim with depth := wakeup.depth + 1 }
  unfold attempted at hactivities ⊢
  simpa [wakeHistory, Event.attempt?] using hactivities

theorem tryActivities_within {sim : Simulation} {wakeup : Wakeup}
    (h : OpenAt (wakeup.depth + 1) sim.wakeups) (activities : List String) :
    Within sim.wakeups (wakeup.depth + 1)
        (tryActivities wakeup activities { sim with depth := wakeup.depth + 1 }) ∧
      ∀ moment ∈ tryActivitiesHistory wakeup activities { sim with depth := wakeup.depth + 1 },
        Within sim.wakeups (wakeup.depth + 1) moment.sim :=
  Within.of_leads (tryActivities_leads ..)
    (@Within.start { sim with depth := wakeup.depth + 1 } h)

theorem wake_layered {sim : Simulation} {wakeup : Wakeup}
    (h : OpenAt (wakeup.depth + 1) sim.wakeups) :
    Layered (sim.wake wakeup).wakeups ∧
      ∀ moment ∈ sim.wakeHistory wakeup, Layered moment.sim.wakeups := by
  obtain ⟨hlast, hmoments⟩ :=
    tryActivities_within h (sim.realization.activitiesOf wakeup.component)
  refine ⟨hlast.openAt.toLayered, fun moment hmem => ?_⟩
  rcases List.mem_cons.1 hmem with rfl | hmem
  · exact h.toLayered
  · rcases List.mem_append.1 hmem with hmem | hmem
    · exact (hmoments moment hmem).openAt.toLayered
    · rw [List.mem_singleton.1 hmem]
      exact hlast.openAt.toLayered

/-- Serving a wake-up adds only wake-ups one level deeper, of components that have activities. -/
theorem wake_grown {sim : Simulation} {wakeup : Wakeup} (h : OpenAt (wakeup.depth + 1) sim.wakeups) :
    ∀ other ∈ (sim.wake wakeup).wakeups, other.key ∈ sim.wakeups.map Wakeup.key ∨
      other.depth = wakeup.depth + 1 ∧ sim.realization.activitiesOf other.component ≠ [] := by
  have hactivities := (tryActivities_leads wakeup (sim.realization.activitiesOf wakeup.component)
    { sim with depth := wakeup.depth + 1 }).alike.1
  have hlast := (tryActivities_within h (sim.realization.activitiesOf wakeup.component)).1.grown
  rw [hactivities.realization] at hlast
  exact hlast

theorem event_ne_drain_of_wake {sim : Simulation} {wakeup : Wakeup} :
    ∀ moment ∈ sim.wakeHistory wakeup, moment.event ≠ .drain := by
  intro moment hmem hdrain
  rcases List.mem_cons.1 hmem with rfl | hmem
  · cases hdrain
  · rcases List.mem_append.1 hmem with hmem | hmem
    · have hevent := (tryActivities_leads ..).admits_of_mem moment hmem
      rw [hdrain] at hevent
      cases hevent
    · rw [List.mem_singleton.1 hmem] at hdrain
      cases hdrain

section
variable {sim : Simulation} {wakeup : Wakeup} {rest : List Wakeup}

theorem round_layered (h : Layered (wakeup :: rest)) :
    Layered ({ sim with wakeups := rest }.wake wakeup).wakeups ∧
      ∀ moment ∈ { sim with wakeups := rest }.wakeHistory wakeup, Layered moment.sim.wakeups :=
  @wake_layered { sim with wakeups := rest } wakeup h.openAt_tail

/-- Every wake-up that waits afterwards waited before, or lies one level deeper than the one that
was served and is of a component that has activities. -/
theorem round_grown (h : Layered (wakeup :: rest)) :
    ∀ other ∈ ({ sim with wakeups := rest }.wake wakeup).wakeups, other.key ∈ rest.map Wakeup.key ∨
      other.depth = wakeup.depth + 1 ∧ sim.realization.activitiesOf other.component ≠ [] :=
  @wake_grown { sim with wakeups := rest } wakeup h.openAt_tail

/-- No wake-up waits afterwards at a smaller depth. -/
theorem le_depth_of_round (h : Layered (wakeup :: rest)) :
    ∀ other ∈ ({ sim with wakeups := rest }.wake wakeup).wakeups, wakeup.depth ≤ other.depth := by
  intro other hmem
  rcases round_grown h other hmem with hkey | ⟨hdepth, _⟩
  · obtain ⟨found, hfound, _, hdepth⟩ := Wakeup.exists_of_key_mem hkey
    exact hdepth ▸ (List.pairwise_cons.1 h.sorted).1 found hfound
  · omega

theorem cleared_round (live : sim.halted = false) :
    Cleared ({ sim with wakeups := rest }.wake wakeup) :=
  @cleared_wake { sim with wakeups := rest } live wakeup

end

/-! Rounds. -/

/-- Rounds of a drain: each takes the first wake-up out of the queue and serves it. -/
inductive Rounds : Simulation → List Moment → Simulation → Prop
  | nil (sim : Simulation) : Rounds sim [] sim
  | cons {sim last : Simulation} {wakeup : Wakeup} {rest : List Wakeup} {history : List Moment}
      (live : sim.halted = false) (next : sim.wakeups = wakeup :: rest)
      (shallow : wakeup.depth ≤ sim.limit)
      (tail : Rounds ({ sim with wakeups := rest }.wake wakeup) history last) :
      Rounds sim (⟨sim, .pop⟩ :: ({ sim with wakeups := rest }.wakeHistory wakeup ++ history)) last

/-- How a drain comes to its end: no wake-up waits, or the run has halted, or the next wake-up lies
too deep and the run halts. -/
inductive Ends : Simulation → List Moment → Simulation → Prop
  | settled {sim : Simulation} (settled : sim.wakeups = []) : Ends sim [] sim
  | stopped {sim : Simulation} {wakeup : Wakeup} {rest : List Wakeup} (halted : sim.halted = true)
      (next : sim.wakeups = wakeup :: rest) : Ends sim [⟨sim, .pop⟩] { sim with wakeups := rest }
  | overrun {sim : Simulation} {wakeup : Wakeup} {rest : List Wakeup} (live : sim.halted = false)
      (next : sim.wakeups = wakeup :: rest) (deep : sim.limit < wakeup.depth) :
      Ends sim
        [⟨sim, .pop⟩, ⟨{ sim with wakeups := rest }, .halt (.cascadeLimitExceeded sim.limit)⟩]
        ({ sim with wakeups := rest }.halt (.cascadeLimitExceeded sim.limit))

theorem woken_round (sim popped : Simulation) (wakeup : Wakeup) (history : List Moment) :
    woken (⟨sim, .pop⟩ :: (popped.wakeHistory wakeup ++ history)) = wakeup :: woken history := by
  have hwake := popped.woken_wakeHistory wakeup
  unfold woken at hwake ⊢
  rw [collect_cons, collect_append, hwake]
  rfl

/-- A drain goes through rounds until it comes to its end, unless its bound stops it before. -/
theorem drainLoop_rounds (fuel : Nat) (sim : Simulation) : ∃ rounds mid, Rounds sim rounds mid ∧
    ((woken rounds).length = fuel ∨
      ∃ ending, Ends mid ending (drainLoop fuel sim) ∧
        drainLoopHistory fuel sim = rounds ++ ending) := by
  induction fuel generalizing sim with
  | zero => exact ⟨[], sim, .nil sim, .inl rfl⟩
  | succ fuel ih =>
    rw [drainLoopHistory, drainLoop]
    cases hwakeups : sim.wakeups with
    | nil => exact ⟨[], sim, .nil sim, .inr ⟨[], .settled hwakeups, rfl⟩⟩
    | cons wakeup rest =>
      dsimp only
      split
      · next hhalted => exact ⟨[], sim, .nil sim, .inr ⟨_, .stopped hhalted hwakeups, rfl⟩⟩
      · next hhalted =>
        have hlive := Bool.eq_false_iff.2 hhalted
        split
        · next hdeep => exact ⟨[], sim, .nil sim, .inr ⟨_, .overrun hlive hwakeups hdeep, rfl⟩⟩
        · next hshallow =>
          obtain ⟨rounds, mid, hrounds, hend⟩ := ih ({ sim with wakeups := rest }.wake wakeup)
          refine ⟨_, mid, .cons hlive hwakeups (Nat.le_of_not_lt hshallow) hrounds, ?_⟩
          rcases hend with hlength | ⟨ending, hends, hhistory⟩
          · exact .inl (by rw [woken_round, List.length_cons, hlength])
          · exact .inr ⟨ending, hends, by rw [hhistory]; simp⟩

namespace Ends

variable {sim last : Simulation} {history : List Moment}

theorem woken_eq_nil (ends : Ends sim history last) : woken history = [] := by
  cases ends <;> rfl

theorem attempted_eq_nil (ends : Ends sim history last) : attempted history = [] := by
  cases ends <;> rfl

theorem layered (ends : Ends sim history last) (h : Layered sim.wakeups) :
    Layered last.wakeups ∧ ∀ moment ∈ history, Layered moment.sim.wakeups := by
  cases ends with
  | settled => exact ⟨h, by simp⟩
  | stopped _ next =>
    refine ⟨(next ▸ h).tail, fun moment hmem => ?_⟩
    rw [List.mem_singleton.1 hmem]
    exact h
  | overrun _ next =>
    refine ⟨.nil, fun moment hmem => ?_⟩
    rcases List.mem_pair.1 hmem with rfl | rfl
    · exact h
    · exact (next ▸ h).tail

theorem depth_eq (ends : Ends sim history last) : last.depth = sim.depth := by
  cases ends <;> rfl

theorem event_ne_drain (ends : Ends sim history last) : ∀ moment ∈ history, moment.event ≠ .drain := by
  intro moment hmem hdrain
  cases ends with
  | settled => simp at hmem
  | stopped =>
    rw [List.mem_singleton.1 hmem] at hdrain
    cases hdrain
  | overrun => rcases List.mem_pair.1 hmem with rfl | rfl <;> cases hdrain

end Ends

namespace Rounds

variable {sim last : Simulation} {history : List Moment}

theorem alike (rounds : Rounds sim history last) : Alike sim last := by
  induction rounds with
  | nil => exact .refl _
  | @cons sim last wakeup rest history live next shallow tail ih =>
    exact ((Alike.popped sim rest).trans (wake_leads ..).alike.1).trans ih

theorem depth_eq (rounds : Rounds sim history last) : last.depth = sim.depth := by
  induction rounds with
  | nil => rfl
  | cons _ _ _ _ ih => exact ih

theorem layered (rounds : Rounds sim history last) (h : Layered sim.wakeups) :
    Layered last.wakeups ∧ ∀ moment ∈ history, Layered moment.sim.wakeups := by
  induction rounds with
  | nil => exact ⟨h, by simp⟩
  | @cons sim last wakeup rest history live next shallow tail ih =>
    rw [next] at h
    obtain ⟨hwake, hserved⟩ := round_layered h
    obtain ⟨hlast, hmoments⟩ := ih hwake
    refine ⟨hlast, fun moment hmem => ?_⟩
    rcases List.mem_cons.1 hmem with rfl | hmem
    · exact next ▸ h
    · rcases List.mem_append.1 hmem with hmem | hmem
      · exact hserved moment hmem
      · exact hmoments moment hmem

/-- Every wake-up that is served waits at the start, or lies deeper than some bound on the depths of
those that do. -/
theorem key_or_deeper {bound : Nat} (rounds : Rounds sim history last) (h : Layered sim.wakeups)
    (hbound : ∀ wakeup ∈ sim.wakeups, bound ≤ wakeup.depth) :
    ∀ wakeup ∈ woken history, wakeup.key ∈ sim.wakeups.map Wakeup.key ∨ bound < wakeup.depth := by
  induction rounds with
  | nil => simp [woken]
  | @cons sim last front rest history live next shallow tail ih =>
    rw [next] at h hbound ⊢
    have hfront : bound ≤ front.depth := hbound front (by simp)
    have hwoken := ih (round_layered h).1 fun other hmem =>
      Nat.le_trans hfront (le_depth_of_round h other hmem)
    intro wakeup hmem
    rw [woken_round] at hmem
    rcases List.mem_cons.1 hmem with rfl | hmem
    · exact .inl (by simp)
    · rcases hwoken wakeup hmem with hkey | hdeeper
      · obtain ⟨other, hother, hcomponent, hdepth⟩ := Wakeup.exists_of_key_mem hkey
        have hkey : other.key = wakeup.key := Prod.ext hcomponent hdepth
        rcases round_grown h other hother with hrest | ⟨hnew, _⟩
        · exact .inl (List.mem_cons_of_mem _ (hkey ▸ hrest))
        · exact .inr (by omega)
      · exact .inr hdeeper

/-- No component is woken up twice at one depth. -/
theorem nodup (rounds : Rounds sim history last) (h : Layered sim.wakeups) :
    ((woken history).map Wakeup.key).Nodup := by
  induction rounds with
  | nil => exact List.nodup_nil
  | @cons sim last front rest history live next shallow tail ih =>
    rw [next] at h
    rw [woken_round, List.map_cons, List.nodup_cons]
    refine ⟨fun hagain => ?_, ih (round_layered h).1⟩
    obtain ⟨wakeup, hmem, hkey⟩ := List.mem_map.1 hagain
    have hdepth : wakeup.depth = front.depth := congrArg Prod.snd hkey
    rcases key_or_deeper tail (round_layered h).1 (le_depth_of_round h) wakeup hmem with
      hwaits | hdeeper
    · obtain ⟨other, hother, hother_key⟩ := List.mem_map.1 hwaits
      rcases round_grown h other hother with hrest | ⟨hnew, _⟩
      · rw [hother_key, hkey] at hrest
        exact (List.nodup_cons.1 h.distinct).1 hrest
      · have hsame : other.depth = wakeup.depth := congrArg Prod.snd hother_key
        omega
    · omega

theorem depth_le_limit (rounds : Rounds sim history last) :
    ∀ wakeup ∈ woken history, wakeup.depth ≤ sim.limit := by
  induction rounds with
  | nil => simp [woken]
  | @cons sim last front rest history live next shallow tail ih =>
    have hlimit := (wake_leads { sim with wakeups := rest } front).alike.1.limit
    intro wakeup hmem
    rw [woken_round] at hmem
    rcases List.mem_cons.1 hmem with rfl | hmem
    · exact shallow
    · rw [hlimit] at ih
      exact ih wakeup hmem

/-- Only components that have activities are woken up. -/
theorem active (rounds : Rounds sim history last) (hlayered : Layered sim.wakeups)
    (h : ∀ wakeup ∈ sim.wakeups, sim.realization.activitiesOf wakeup.component ≠ []) :
    ∀ wakeup ∈ woken history, sim.realization.activitiesOf wakeup.component ≠ [] := by
  induction rounds with
  | nil => simp [woken]
  | @cons sim last front rest history live next shallow tail ih =>
    rw [next] at hlayered h
    have hrealization := (wake_leads { sim with wakeups := rest } front).alike.1.realization
    rw [hrealization] at ih
    intro wakeup hmem
    rw [woken_round] at hmem
    rcases List.mem_cons.1 hmem with rfl | hmem
    · exact h wakeup (by simp)
    · refine ih (round_layered hlayered).1 (fun other hother => ?_) wakeup hmem
      rcases round_grown hlayered other hother with hrest | ⟨_, hactive⟩
      · obtain ⟨found, hfound, hcomponent, _⟩ := Wakeup.exists_of_key_mem hrest
        exact hcomponent ▸ h found (List.mem_cons_of_mem _ hfound)
      · exact hactive

theorem attempts (rounds : Rounds sim history last) :
    (attempted history).Sublist ((woken history).flatMap fun wakeup =>
      (sim.realization.activitiesOf wakeup.component).map fun activity => (wakeup, activity)) := by
  induction rounds with
  | nil => exact .slnil
  | @cons sim last front rest history live next shallow tail ih =>
    have hrealization := (wake_leads { sim with wakeups := rest } front).alike.1.realization
    have hserved := attempted_wakeHistory { sim with wakeups := rest } front
    rw [hrealization] at ih
    rw [woken_round, List.flatMap_cons]
    unfold attempted at ih hserved ⊢
    rw [collect_cons, collect_append]
    exact hserved.append ih

/-- There are at most as many rounds as there are components at each depth. -/
theorem length_le {model : Model} (rounds : Rounds sim history last) (hlayered : Layered sim.wakeups)
    (hrealization : sim.realization = (Realization.ofModel model).1)
    (h : ∀ wakeup ∈ sim.wakeups, sim.realization.activitiesOf wakeup.component ≠ []) :
    (woken history).length ≤ (sim.limit + 1) * model.components.size := by
  have hkeys : (woken history).map Wakeup.key ⊆
      model.components.keys.product (List.range (sim.limit + 1)) := by
    intro key hmem
    obtain ⟨wakeup, hwoken, rfl⟩ := List.mem_map.1 hmem
    have hactive := rounds.active hlayered h wakeup hwoken
    rw [hrealization] at hactive
    refine List.pair_mem_product.2 ⟨?_, ?_⟩
    · exact Table.mem_keys_of_contains (Realization.contains_of_activitiesOf hactive)
    · exact List.mem_range.2 (Nat.lt_succ_of_le (rounds.depth_le_limit wakeup hwoken))
  have hlength := (List.subperm_of_subset (rounds.nodup hlayered) hkeys).length_le
  rw [List.length_map, show (model.components.keys.product (List.range (sim.limit + 1))).length =
    model.components.keys.length * (List.range (sim.limit + 1)).length from List.length_product ..,
    List.length_range, Nat.mul_comm] at hlength
  simpa [Table.keys, Table.size] using hlength

theorem cleared (rounds : Rounds sim history last) (h : Cleared sim) : Cleared last := by
  induction rounds with
  | nil => exact h
  | cons live _ _ _ ih => exact ih (cleared_round live)

/-- A drain leaves no wake-up behind, unless the run had halted before: then it only drops one. -/
theorem emptied {mid : Simulation} {ending : List Moment} (rounds : Rounds sim history mid)
    (ends : Ends mid ending last) :
    last.wakeups = [] ∨ sim.halted = true ∧ last.wakeups = sim.wakeups.tail := by
  cases ends with
  | settled settled => exact .inl settled
  | overrun => exact .inl rfl
  | stopped halted next =>
    refine .inr ?_
    cases rounds with
    | nil => exact ⟨halted, by rw [next]; rfl⟩
    | cons live _ _ tail =>
      -- A run that halts during a round has no wake-ups to go on with.
      have hempty := tail.cleared (cleared_round live) halted
      rw [next] at hempty
      cases hempty

theorem event_ne_drain (rounds : Rounds sim history last) :
    ∀ moment ∈ history, moment.event ≠ .drain := by
  induction rounds with
  | nil => simp
  | @cons sim last front rest history live next shallow tail ih =>
    intro moment hmem
    rcases List.mem_cons.1 hmem with rfl | hmem
    · nofun
    · rcases List.mem_append.1 hmem with hmem | hmem
      · exact event_ne_drain_of_wake moment hmem
      · exact ih moment hmem

end Rounds

/-- What holds of a simulation between two operations: it lies at depth 0, and so do the wake-ups
that wait, all of components that have activities. -/
structure Steady (model : Model) (config : Config) (sim : Simulation) : Prop where
  alike : Alike (.new model config) sim
  depth_eq : sim.depth = 0
  openAt : OpenAt 0 sim.wakeups
  active : ∀ wakeup ∈ sim.wakeups, sim.realization.activitiesOf wakeup.component ≠ []

/-- A drain of the simulation comes to its end, and this is what it goes through before. -/
structure Settles (model : Model) (config : Config) (sim : Simulation) : Prop where
  /-- Rounds until there is an end. No number of rounds is fixed beforehand. -/
  ends : ∃ rounds mid ending, Rounds sim rounds mid ∧ Ends mid ending sim.drain ∧
    sim.drainHistory = ⟨sim, .drain⟩ :: (rounds ++ ending)
  /-- If the run has not halted before, nothing is left to be done. -/
  emptied : sim.halted = false → sim.drain.wakeups = []
  /-- No component is woken up twice at one depth. -/
  distinct : ((woken sim.drainHistory).map Wakeup.key).Nodup
  shallow : ∀ wakeup ∈ woken sim.drainHistory, wakeup.depth ≤ config.maxCascadeDepth
  bounded : (woken sim.drainHistory).length ≤ (config.maxCascadeDepth + 1) * model.components.size
  /-- A component that is woken up makes at most one attempt at each entry of its activities. -/
  attempts : (attempted sim.drainHistory).Sublist ((woken sim.drainHistory).flatMap fun wakeup =>
    ((Realization.ofModel model).1.activitiesOf wakeup.component).map fun activity =>
      (wakeup, activity))

namespace Steady

variable {model : Model} {config : Config} {sim last : Simulation} {history : List Moment}

theorem new (model : Model) (config : Config) : Steady model config (.new model config) :=
  ⟨.refl _, rfl, .nil 0, by simp [Simulation.new]⟩

theorem effect (h : Steady model config sim) {event : Event} (hevent : event.Works sim) :
    Steady model config (event.effect sim) := by
  have halike := Alike.effect event sim
  have hopen : OpenAt sim.depth sim.wakeups := h.depth_eq ▸ h.openAt
  have hwithin := (Within.start hopen).effect hevent
  rw [h.depth_eq] at hwithin
  refine ⟨h.alike.trans halike, hwithin.depth_eq, hwithin.openAt, fun wakeup hmem => ?_⟩
  rcases hwithin.grown wakeup hmem with hkey | ⟨_, hactive⟩
  · obtain ⟨found, hfound, hcomponent, _⟩ := Wakeup.exists_of_key_mem hkey
    rw [halike.realization, ← hcomponent]
    exact h.active found hfound
  · exact hactive

theorem of_leads (leads : Leads Event.Works sim history last)
    (h : Steady model config sim) :
    Steady model config last ∧ ∀ moment ∈ history, Steady model config moment.sim :=
  leads.invariant (fun _ _ hevent hsim => hsim.effect hevent) h

theorem of_course {live : Prop} (course : Course (Event.Plain live) sim history last)
    (h : Steady model config sim) : Steady model config last :=
  (of_leads course.works h).1

theorem resumed (h : Steady model config sim) : Steady model config { sim with halted := false } :=
  @effect _ _ _ h .resume rfl

/-- The bound on the rounds of a drain is never reached. -/
theorem rounds (h : Steady model config sim) : ∃ rounds mid ending, Rounds sim rounds mid ∧
    Ends mid ending sim.drain ∧ sim.drainHistory = ⟨sim, .drain⟩ :: (rounds ++ ending) := by
  obtain ⟨rounds, mid, hrounds, hend⟩ := drainLoop_rounds sim.drainBound sim
  rcases hend with hlength | ⟨ending, hends, hhistory⟩
  · have hsize : sim.model.components.size = model.components.size :=
      Model.size_congr h.alike.outline
    have hbound := hrounds.length_le h.openAt.toLayered h.alike.realization h.active
    have hroom : (sim.limit + 1) * model.components.size <
        (sim.limit + 2) * (model.components.size + 1) :=
      calc (sim.limit + 1) * model.components.size
        _ ≤ (sim.limit + 2) * model.components.size := Nat.mul_le_mul_right _ (Nat.le_succ _)
        _ < (sim.limit + 2) * (model.components.size + 1) :=
          Nat.mul_lt_mul_of_pos_left (Nat.lt_succ_self _) (Nat.succ_pos _)
    unfold drainBound at hlength
    rw [hsize] at hlength
    omega
  · exact ⟨rounds, mid, ending, hrounds, hends, by rw [← hhistory]; rfl⟩

theorem settles (h : Steady model config sim) : Settles model config sim := by
  obtain ⟨rounds, mid, ending, hrounds, hends, hhistory⟩ := h.rounds
  have hlimit : sim.limit = config.maxCascadeDepth := h.alike.limit
  have hrealization : sim.realization = (Realization.ofModel model).1 := h.alike.realization
  have hwoken : woken sim.drainHistory = woken rounds := by
    have hnone := hends.woken_eq_nil
    unfold woken at hnone ⊢
    simp [hhistory, hnone, Event.wake?]
  have hattempted : attempted sim.drainHistory = attempted rounds := by
    have hnone := hends.attempted_eq_nil
    unfold attempted at hnone ⊢
    simp [hhistory, hnone, Event.attempt?]
  refine ⟨⟨rounds, mid, ending, hrounds, hends, hhistory⟩, fun hlive => ?_, ?_, ?_, ?_, ?_⟩
  · rcases hrounds.emptied hends with hempty | ⟨hhalted, _⟩
    · exact hempty
    · rw [hlive] at hhalted
      cases hhalted
  · rw [hwoken]
    exact hrounds.nodup h.openAt.toLayered
  · rw [hwoken, ← hlimit]
    exact hrounds.depth_le_limit
  · rw [hwoken, ← hlimit]
    exact hrounds.length_le h.openAt.toLayered hrealization h.active
  · rw [hwoken, hattempted, ← hrealization]
    exact hrounds.attempts

theorem drain (h : Steady model config sim) : Steady model config sim.drain := by
  obtain ⟨rounds, mid, ending, hrounds, hends, _⟩ := h.rounds
  have halike := sim.drain_leads.alike.1
  have hdepth : sim.drain.depth = 0 := by rw [hends.depth_eq, hrounds.depth_eq, h.depth_eq]
  rcases hrounds.emptied hends with hempty | ⟨_, htail⟩
  · exact ⟨h.alike.trans halike, hdepth, hempty ▸ .nil 0, by simp [hempty]⟩
  · refine ⟨h.alike.trans halike, hdepth, ?_, fun wakeup hmem => ?_⟩
    · rw [htail]
      cases hwakeups : sim.wakeups with
      | nil => exact .nil 0
      | cons wakeup rest =>
        have hopen := hwakeups ▸ h.openAt
        exact ⟨hopen.toLayered.tail, fun other hmem => hopen.above other (List.mem_cons_of_mem _ hmem),
          fun other _ => Nat.zero_le _⟩
    · rw [halike.realization]
      exact h.active wakeup (List.mem_of_mem_tail (htail ▸ hmem))

end Steady

/-- At every moment of a history the queue is layered, and every drain settles. -/
def Orderly (model : Model) (config : Config) (history : List Moment) : Prop :=
  ∀ moment ∈ history, Layered moment.sim.wakeups ∧
    (moment.event = .drain → Settles model config moment.sim)

section
variable {model : Model} {config : Config} {sim last : Simulation} {history later : List Moment}

theorem Orderly.append (first : Orderly model config history) (second : Orderly model config later) :
    Orderly model config (history ++ later) :=
  fun moment hmem => (List.mem_append.1 hmem).elim (first moment) (second moment)

theorem Steady.orderly (h : Steady model config sim)
    (leads : Leads Event.Works sim history last) :
    Orderly model config history := by
  intro moment hmem
  refine ⟨((of_leads leads h).2 moment hmem).openAt.toLayered, fun hdrain => ?_⟩
  have hevent := leads.admits_of_mem moment hmem
  rw [hdrain] at hevent
  cases hevent

theorem Steady.orderly_drain (h : Steady model config sim) : Orderly model config sim.drainHistory := by
  obtain ⟨rounds, mid, ending, hrounds, hends, hhistory⟩ := h.rounds
  obtain ⟨hmid, hlayered⟩ := hrounds.layered h.openAt.toLayered
  rw [hhistory]
  intro moment hmem
  rcases List.mem_cons.1 hmem with rfl | hmem
  · exact ⟨h.openAt.toLayered, fun _ => h.settles⟩
  · rcases List.mem_append.1 hmem with hmem | hmem
    · exact ⟨hlayered moment hmem, fun hdrain => absurd hdrain (hrounds.event_ne_drain moment hmem)⟩
    · exact ⟨(hends.layered hmid).2 moment hmem,
        fun hdrain => absurd hdrain (hends.event_ne_drain moment hmem)⟩

/-- However a simulation is driven, it is steady in the end and orderly on the way. -/
theorem Driven.steady (driven : Driven sim history last) (h : Steady model config sim) :
    Steady model config last ∧ Orderly model config history := by
  induction driven with
  | nil => exact ⟨h, by simp [Orderly]⟩
  | note admitted silent tail ih =>
    have hleads := Leads.single admitted.works
    obtain ⟨hlast, horderly⟩ := ih (Steady.of_leads hleads h).1
    exact ⟨hlast, (h.orderly hleads).append horderly⟩
  | react course tail ih =>
    have hmid := Steady.of_course course h
    obtain ⟨hlast, horderly⟩ := ih hmid.drain
    exact ⟨hlast, (h.orderly course.works).append (hmid.orderly_drain.append horderly)⟩

/-- Every operation on a steady simulation leaves it steady and is orderly. -/
theorem Steady.operation (h : Steady model config sim) (operation : Operation) :
    Steady model config (operation.apply model config sim) ∧
      Orderly model config (operation.history model config sim) := by
  have hquiet {later : List Moment} {next : Simulation}
      (leads : Leads Event.Works sim later next) :
      Steady model config next ∧ Orderly model config later :=
    ⟨(of_leads leads h).1, h.orderly leads⟩
  cases operation with
  | send port value =>
    have hcourse : Course (Event.Plain False) sim _ _ := send_course sim port value False.elim
    exact hquiet hcourse.works
  | receive port value =>
    have hleads := receive_leads False sim port value False.elim
    exact hquiet (hleads.mono fun _ _ => Event.Plain.works)
  | transmit index value =>
    exact hquiet ((sim.transmit_leads index value).mono fun _ _ => Event.Carries.works)
  | drain => exact ⟨h.drain, h.orderly_drain⟩
  | sendToPort qualified value => exact (sim.sendToPort_driven qualified value).steady h
  | run inputs => exact (simulate_driven model config inputs).steady (.new model config)

end

theorem steady_after (model : Model) (config : Config) (operations : List Operation) :
    Steady model config (after model config operations) := by
  unfold after
  refine List.foldlRecOn (motive := Steady model config) operations _ (.new model config) ?_
  intro sim h operation _
  exact (h.operation operation).1

/-- After any operations on any model the queue is layered, and so it is at every moment of the
history that a further operation goes through. Every drain, of this state or within that operation,
comes to its end after at most one round for each component and depth. -/
theorem cascades_settle (model : Model) (config : Config) (operations : List Operation) :
    let sim := after model config operations
    Layered sim.wakeups ∧ Settles model config sim ∧
      ∀ operation : Operation,
        Leads Event.Checked (operation.start model config sim) (operation.history model config sim)
          (operation.apply model config sim) ∧
        Orderly model config (operation.history model config sim) := by
  have hsteady := steady_after model config operations
  refine ⟨hsteady.openAt.toLayered, hsteady.settles, fun operation => ?_⟩
  exact ⟨operation.leads model config _, (hsteady.operation operation).2⟩

end Archflow.Simulation
