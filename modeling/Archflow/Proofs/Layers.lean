import Archflow.Proofs.Course

/-!
The queue of wake-ups as layers of a breadth-first search: the depths do not decrease from front to
back, they take at most two consecutive values, and no component waits twice at one depth. Arrivals
at a depth that the queue is open for keep it that way, and so does all work between two changes of
the depth.
-/
namespace Archflow

def Wakeup.key (wakeup : Wakeup) : String × Nat := (wakeup.component, wakeup.depth)

structure Layered (wakeups : List Wakeup) : Prop where
  /-- The depths do not decrease from front to back. -/
  sorted : wakeups.Pairwise fun a b => a.depth ≤ b.depth
  /-- They take at most two consecutive values. -/
  narrow : ∀ a ∈ wakeups, ∀ b ∈ wakeups, b.depth ≤ a.depth + 1
  /-- No two wake-ups share both component and depth. -/
  distinct : (wakeups.map Wakeup.key).Nodup

/-- A layered queue to which arrivals at a depth can be added at the end. -/
structure OpenAt (depth : Nat) (wakeups : List Wakeup) : Prop extends Layered wakeups where
  above : ∀ wakeup ∈ wakeups, wakeup.depth ≤ depth
  near : ∀ wakeup ∈ wakeups, depth ≤ wakeup.depth + 1

namespace Wakeup

theorem map_key_enqueue (port : PortRef) (depth : Nat) (wakeups : List Wakeup) :
    (enqueue port depth wakeups).map key = wakeups.map key ∨
      (port.component, depth) ∉ wakeups.map key ∧
        enqueue port depth wakeups = wakeups ++ [⟨port.component, [port.port], depth⟩] := by
  induction wakeups with
  | nil => exact .inr ⟨by simp, rfl⟩
  | cons wakeup rest ih =>
    simp only [enqueue]
    split
    · exact .inl rfl
    · next hother =>
      have hkey : (port.component, depth) ≠ wakeup.key := by
        intro heq
        have hcomponent : port.component = wakeup.component := congrArg Prod.fst heq
        have hdepth : depth = wakeup.depth := congrArg Prod.snd heq
        simp [hcomponent, hdepth] at hother
      rcases ih with heq | ⟨hnew, heq⟩
      · exact .inl (by simp [heq])
      · exact .inr ⟨by simp [hkey, hnew], by simp [heq]⟩

/-- A key that occurs in a queue belongs to a wake-up of the same component at the same depth. -/
theorem exists_of_key_mem {wakeups : List Wakeup} {wakeup : Wakeup}
    (h : wakeup.key ∈ wakeups.map key) :
    ∃ found ∈ wakeups, found.component = wakeup.component ∧ found.depth = wakeup.depth := by
  obtain ⟨found, hfound, hkey⟩ := List.mem_map.1 h
  exact ⟨found, hfound, congrArg Prod.fst hkey, congrArg Prod.snd hkey⟩

theorem exists_of_map_key_eq {wakeups other : List Wakeup} (h : other.map key = wakeups.map key)
    {wakeup : Wakeup} (hmem : wakeup ∈ other) :
    ∃ found ∈ wakeups, found.component = wakeup.component ∧ found.depth = wakeup.depth :=
  exists_of_key_mem (h ▸ List.mem_map_of_mem hmem)

end Wakeup

namespace Layered

theorem nil : Layered [] := ⟨.nil, by simp, by simp⟩

/-- Being layered is a matter of components and depths only. -/
theorem of_map_key_eq {wakeups other : List Wakeup} (h : Layered wakeups)
    (heq : other.map Wakeup.key = wakeups.map Wakeup.key) : Layered other := by
  refine ⟨?_, fun a ha b hb => ?_, heq ▸ h.distinct⟩
  · have hsorted : (wakeups.map Wakeup.key).Pairwise fun a b => a.2 ≤ b.2 :=
      List.pairwise_map.2 h.sorted
    rw [← heq, List.pairwise_map] at hsorted
    exact hsorted
  · obtain ⟨a', ha', _, hda⟩ := Wakeup.exists_of_map_key_eq heq ha
    obtain ⟨b', hb', _, hdb⟩ := Wakeup.exists_of_map_key_eq heq hb
    have hnarrow := h.narrow a' ha' b' hb'
    omega

theorem tail {wakeup : Wakeup} {rest : List Wakeup} (h : Layered (wakeup :: rest)) : Layered rest :=
  ⟨(List.pairwise_cons.1 h.sorted).2,
    fun a ha b hb => h.narrow a (List.mem_cons_of_mem _ ha) b (List.mem_cons_of_mem _ hb),
    (List.nodup_cons.1 h.distinct).2⟩

theorem openAt_tail {wakeup : Wakeup} {rest : List Wakeup} (h : Layered (wakeup :: rest)) :
    OpenAt (wakeup.depth + 1) rest where
  toLayered := h.tail
  above other hmem := h.narrow wakeup (by simp) other (List.mem_cons_of_mem _ hmem)
  near other hmem := Nat.succ_le_succ ((List.pairwise_cons.1 h.sorted).1 other hmem)

end Layered

namespace OpenAt

variable {depth : Nat} {wakeups : List Wakeup}

theorem nil (depth : Nat) : OpenAt depth [] := ⟨.nil, by simp, by simp⟩

theorem enqueue (h : OpenAt depth wakeups) (port : PortRef) :
    OpenAt depth (Wakeup.enqueue port depth wakeups) := by
  rcases Wakeup.map_key_enqueue port depth wakeups with heq | ⟨hnew, heq⟩
  · refine ⟨h.toLayered.of_map_key_eq heq, fun wakeup hmem => ?_, fun wakeup hmem => ?_⟩
    · obtain ⟨found, hfound, _, hdepth⟩ := Wakeup.exists_of_map_key_eq heq hmem
      exact hdepth ▸ h.above found hfound
    · obtain ⟨found, hfound, _, hdepth⟩ := Wakeup.exists_of_map_key_eq heq hmem
      exact hdepth ▸ h.near found hfound
  · rw [heq]
    refine ⟨⟨?_, fun a ha b hb => ?_, ?_⟩, fun wakeup hmem => ?_, fun wakeup hmem => ?_⟩
    · refine List.pairwise_append.2 ⟨h.sorted, List.pairwise_singleton .., fun a ha b hb => ?_⟩
      rw [List.mem_singleton.1 hb]
      exact h.above a ha
    · rcases List.mem_append.1 ha with ha | ha <;> rcases List.mem_append.1 hb with hb | hb
      · exact h.narrow a ha b hb
      · rw [List.mem_singleton.1 hb]
        exact h.near a ha
      · rw [List.mem_singleton.1 ha]
        exact Nat.le_succ_of_le (h.above b hb)
      · rw [List.mem_singleton.1 ha, List.mem_singleton.1 hb]
        exact Nat.le_succ _
    · rw [List.map_append]
      refine List.nodup_append.2 ⟨h.distinct, by simp, fun key hkey other hother => ?_⟩
      have hlast : other = (port.component, depth) := by simpa [Wakeup.key] using hother
      rintro rfl
      rw [hlast] at hkey
      exact hnew hkey
    · rcases List.mem_append.1 hmem with hmem | hmem
      · exact h.above wakeup hmem
      · exact (List.mem_singleton.1 hmem) ▸ Nat.le_refl _
    · rcases List.mem_append.1 hmem with hmem | hmem
      · exact h.near wakeup hmem
      · exact (List.mem_singleton.1 hmem) ▸ Nat.le_succ _

end OpenAt

namespace Simulation

def Event.Works (_ : Simulation) (event : Event) : Prop := event.isControl = false

theorem Event.Carries.works {sim : Simulation} {event : Event} (h : event.Carries sim) :
    event.Works sim := by
  have hkind := h.2
  cases event <;> simp_all [Event.Works, Event.isTransport, Event.isPlain, Event.isControl]

theorem Event.Plain.works {live : Prop} {sim : Simulation} {event : Event} (h : event.Plain live sim) :
    event.Works sim := h.carries.works

theorem Event.Reacts.works {sim : Simulation} {event : Event} (h : event.Reacts sim) :
    event.Works sim := by
  rcases h with h | ⟨wakeup, activity, rfl⟩
  · exact h.works
  · rfl

theorem Course.works {live : Prop} {sim last : Simulation} {history : List Moment}
    (course : Course (Event.Plain live) sim history last) : Leads Event.Works sim history last :=
  course.leads (fun _ _ => Event.Plain.works) fun _ _ => Event.Carries.works

/-- All that an event can do to the wake-ups, the steps of the cascade itself apart. -/
theorem wakeups_effect {sim : Simulation} {event : Event} (h : event.Works sim) :
    (event.effect sim).depth = sim.depth ∧
      ((event.effect sim).wakeups = sim.wakeups ∨
        (event.effect sim).wakeups = [] ∧ (event.effect sim).halted = true ∨
        ∃ port value, event = .land port value ∧ sim.realization.activitiesOf port.component ≠ [] ∧
          (event.effect sim).wakeups = Wakeup.enqueue port sim.depth sim.wakeups) := by
  cases event with
  | transmit index value =>
    unfold Event.effect
    dsimp only
    split <;> exact ⟨rfl, .inl rfl⟩
  | land port value =>
    unfold Event.effect land
    dsimp only
    split
    · exact ⟨rfl, .inl rfl⟩
    · next hactive => 
      have hactive : sim.realization.activitiesOf port.component ≠ [] :=
        fun hnil => hactive (by simp [record, hnil])
      exact ⟨rfl, .inr (.inr ⟨port, value, rfl, hactive, rfl⟩)⟩
  | fail element kind input fault =>
    unfold Event.effect fail
    dsimp only
    split
    · exact ⟨rfl, .inr (.inl ⟨rfl, rfl⟩)⟩
    · exact ⟨rfl, .inl rfl⟩
  | halt | drain | pop | wake | rest => cases h
  | _ => exact ⟨rfl, .inl rfl⟩

/-- The simulation works at a depth that its queue is open for. Besides the wake-ups it started from
there are only such at this depth, of components that have activities. -/
structure Within (base : List Wakeup) (depth : Nat) (sim : Simulation) : Prop where
  depth_eq : sim.depth = depth
  openAt : OpenAt depth sim.wakeups
  grown : ∀ wakeup ∈ sim.wakeups, wakeup.key ∈ base.map Wakeup.key ∨
    wakeup.depth = depth ∧ sim.realization.activitiesOf wakeup.component ≠ []

namespace Within

variable {base : List Wakeup} {depth : Nat} {sim last : Simulation} {history : List Moment}

theorem start {sim : Simulation} (h : OpenAt sim.depth sim.wakeups) :
    Within sim.wakeups sim.depth sim :=
  ⟨rfl, h, fun _ hmem => .inl (List.mem_map_of_mem hmem)⟩

theorem effect (h : Within base depth sim) {event : Event} (hevent : event.Works sim) :
    Within base depth (event.effect sim) := by
  obtain ⟨hdepth, hwakeups⟩ := wakeups_effect hevent
  have hrealization := (Alike.effect event sim).realization
  refine ⟨hdepth.trans h.depth_eq, ?_, ?_⟩
  · rcases hwakeups with heq | ⟨heq, _⟩ | ⟨port, _, _, _, heq⟩ <;> rw [heq]
    · exact h.openAt
    · exact .nil _
    · rw [h.depth_eq]
      exact h.openAt.enqueue port
  · rw [hrealization]
    rcases hwakeups with heq | ⟨heq, _⟩ | ⟨port, _, _, hactive, heq⟩ <;> rw [heq]
    · exact h.grown
    · simp
    · rw [h.depth_eq]
      intro wakeup hmem
      rcases Wakeup.map_key_enqueue port depth sim.wakeups with hkeys | ⟨_, happend⟩
      · obtain ⟨found, hfound, hcomponent, hdepth⟩ := Wakeup.exists_of_map_key_eq hkeys hmem
        have hkey : found.key = wakeup.key := Prod.ext hcomponent hdepth
        rw [← hkey, ← hcomponent, ← hdepth]
        exact h.grown found hfound
      · rw [happend] at hmem
        rcases List.mem_append.1 hmem with hmem | hmem
        · exact h.grown wakeup hmem
        · rw [List.mem_singleton.1 hmem]
          exact .inr ⟨rfl, hactive⟩

theorem of_leads (leads : Leads Event.Works sim history last)
    (h : Within base depth sim) :
    Within base depth last ∧ ∀ moment ∈ history, Within base depth moment.sim :=
  leads.invariant (fun _ _ hevent hsim => hsim.effect hevent) h

end Within
end Simulation
end Archflow
