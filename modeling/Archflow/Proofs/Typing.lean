import Archflow.Proofs.Driven

/-!
Port values stay well typed. Ports are written by sends, receptions and values from outside, and
each write is to a port that has accepted that value.
-/
namespace Archflow

/-- An item of a list in which one item has been changed is an old one or the changed one. -/
theorem mem_updateFirst {α : Type} {test : α → Bool} {change : α → α} {items : List α} {item : α}
    (h : item ∈ updateFirst test change items) :
    item ∈ items ∨ ∃ found, items.find? test = some found ∧ item = change found := by
  induction items with
  | nil => cases h
  | cons first rest ih =>
    simp only [updateFirst] at h
    by_cases htest : test first
    · rw [if_pos htest] at h
      rcases List.mem_cons.1 h with rfl | hmem
      · exact .inr ⟨first, by simp [htest], rfl⟩
      · exact .inl (List.mem_cons_of_mem _ hmem)
    · rw [if_neg htest] at h
      rcases List.mem_cons.1 h with rfl | hmem
      · exact .inl (by simp)
      · rcases ih hmem with hold | ⟨found, hfound, hitem⟩
        · exact .inl (List.mem_cons_of_mem _ hold)
        · exact .inr ⟨found, by simpa [List.find?_cons, htest] using hfound, hitem⟩

namespace Model

/-- Every port that holds a value holds one of its type. -/
def WellTyped (model : Model) : Prop :=
  ∀ name component, model.components.get? name = some component →
    ∀ port ∈ component.ports, ∀ value, port.value = some value →
      model.symbols.conforms value port.type = true

/-- The port is there, and the value is of its type. -/
def Admits (model : Model) (ref : PortRef) (value : Value) : Prop :=
  ∃ port, model.resolve ref = .ok port ∧ model.symbols.conforms value port.type = true

section
variable {model : Model} {ref : PortRef} {value : Value}

theorem conforms_of_checkPayload {port : Port} {symbols : SymbolTable}
    (h : port.checkPayload symbols value = .ok ()) : symbols.conforms value port.type = true := by
  unfold Port.checkPayload SymbolTable.check at h
  split at h
  · next hconforms => exact hconforms
  · cases h

/-- Whatever else a port is asked, it accepts only values of its type. -/
theorem admits_of_check {question : Port → Except Fault Unit}
    (h : (do
      let port ← model.resolve ref
      question port
      port.checkPayload model.symbols value) = .ok ()) : model.Admits ref value := by
  cases hresolve : model.resolve ref with
  | error fault =>
    rw [hresolve] at h
    cases h
  | ok port =>
    rw [hresolve] at h
    refine ⟨port, hresolve, ?_⟩
    cases hanswer : question port with
    | error fault =>
      simp only [bind, Except.bind, hanswer] at h
      cases h
    | ok =>
      simp only [bind, Except.bind, hanswer] at h
      exact conforms_of_checkPayload h

theorem admits_of_checkReceive (h : model.checkReceive ref value = .ok ()) : model.Admits ref value :=
  @admits_of_check model ref value Port.checkReceive h

theorem admits_of_checkSend (h : model.checkSend ref value = .ok ()) : model.Admits ref value :=
  @admits_of_check model ref value Port.checkSend h

/-- Changes of components that keep their ports keep a model well typed. -/
theorem WellTyped.of_ports {other : Model} (h : model.WellTyped)
    (hsymbols : other.symbols = model.symbols)
    (hports : ∀ name component, other.components.get? name = some component →
      ∃ old, model.components.get? name = some old ∧ component.ports = old.ports) :
    other.WellTyped := by
  intro name component hget port hport held hheld
  obtain ⟨old, hold, hsame⟩ := hports name component hget
  rw [hsymbols]
  exact h name old hold port (hsame ▸ hport) held hheld

theorem WellTyped.setState (h : model.WellTyped) (owner key : String) (value : Value) :
    (model.setState owner key value).WellTyped := by
  refine h.of_ports rfl fun name component hget => ?_
  simp only [Model.setState, updateComponent, Table.get?_modify] at hget
  split at hget
  · obtain ⟨old, hold, rfl⟩ := Option.map_eq_some_iff.1 hget
    exact ⟨old, hold, rfl⟩
  · exact ⟨component, hget, rfl⟩

/-- The port that takes a value is the one that a reference leads to, the first of its name. -/
theorem WellTyped.setPort (h : model.WellTyped) (hadmits : model.Admits ref value) :
    (model.setPort ref value).WellTyped := by
  obtain ⟨accepting, hresolve, hconforms⟩ := hadmits
  intro name component hget port hport held hheld
  simp only [Model.setPort, updateComponent, Table.get?_modify] at hget
  split at hget
  · next hname =>
    subst hname
    obtain ⟨old, hold, rfl⟩ := Option.map_eq_some_iff.1 hget
    rcases mem_updateFirst hport with hkept | ⟨found, hfound, rfl⟩
    · exact h _ old hold port hkept held hheld
    · have hsame : found = accepting := by
        have hport? : old.port? ref.port = some found := hfound
        simp only [resolve, hold, hport?] at hresolve
        exact Except.ok.inj hresolve
      cases hheld
      rw [hsame]
      exact hconforms
  · exact h name component hget port hport held hheld

end

end Model

namespace Simulation

theorem wellTyped_land {sim : Simulation} {port : PortRef} {value : Value} (h : sim.model.WellTyped)
    (hadmits : sim.model.Admits port value) : (sim.land value port).model.WellTyped := by
  have hwritten := (h.setPort hadmits).setState port.component port.port value
  unfold land
  dsimp only
  split
  · exact hwritten
  · exact hwritten

theorem wellTyped_seed {sim : Simulation} (h : sim.model.WellTyped) :
    sim.seedInitialValues.model.WellTyped := by
  refine h.of_ports rfl fun name component hget => ?_
  simp only [seedInitialValues, Table.get?_map] at hget
  obtain ⟨old, hold, rfl⟩ := Option.map_eq_some_iff.1 hget
  exact ⟨old, hold, rfl⟩

/-- No event gives a port a value of another type. -/
theorem wellTyped_effect {sim : Simulation} {event : Event} (hevent : event.Checked sim)
    (h : sim.model.WellTyped) : (event.effect sim).model.WellTyped := by
  cases event with
  | land port value => exact wellTyped_land h (Model.admits_of_checkReceive hevent)
  | write port value => exact h.setPort (Model.admits_of_checkSend hevent)
  | place port value =>
    obtain ⟨resolved, hresolve, hpayload⟩ := hevent
    exact (h.setPort ⟨resolved, hresolve, Model.conforms_of_checkPayload hpayload⟩).setState _ _ _
  | store component key value => exact h.setState _ _ _
  | seed => exact wellTyped_seed h
  | transmit index value =>
    unfold Event.effect
    dsimp only
    split <;> exact h
  | fail element kind input fault =>
    change (sim.fail element kind input fault).model.WellTyped
    unfold fail
    split <;> exact h
  | _ => exact h

theorem wellTyped_operation {model : Model} {config : Config} {sim : Simulation}
    (hmodel : model.WellTyped) (h : sim.model.WellTyped) (operation : Operation) :
    (operation.apply model config sim).model.WellTyped := by
  have hstart : (operation.start model config sim).model.WellTyped :=
    operation.start_of (fun sim => sim.model.WellTyped) hmodel h
  exact ((operation.leads model config sim).invariant (fun _ _ => wellTyped_effect) hstart).1

/-- If all values on the ports of a model, valid or not, are of the types of the ports, then so they
are after any operations, and these types are the declared ones still. -/
theorem wellTyped_after {model : Model} (h : model.WellTyped) (config : Config)
    (operations : List Operation) :
    (after model config operations).model.outline = model.outline ∧
      (after model config operations).model.WellTyped := by
  refine ⟨(alike_after model config operations).outline, ?_⟩
  unfold after
  refine List.foldlRecOn (motive := fun sim : Simulation => sim.model.WellTyped) operations _ h ?_
  intro sim hsim operation _
  exact wellTyped_operation h hsim operation

theorem wellTyped_relay : relay.WellTyped := by
  intro name component hget port hport value hheld
  have hentries : relay.components.entries =
      [("sink", { name := "sink", ports := [⟨"in", .input, "sink", .boolean, none⟩] }),
        ("source", {
          name := "source"
          ports := [⟨"out", .output, "source", .boolean, some (.bool true)⟩] })] := rfl
  unfold Table.get? at hget
  rw [hentries] at hget
  simp only [Entries.lookup] at hget
  split at hget
  · cases hget
    rw [List.mem_singleton.1 hport] at hheld
    cases hheld
  · split at hget
    · cases hget
      rw [List.mem_singleton.1 hport] at hheld ⊢
      cases hheld
      rfl
    · cases hget

theorem wellTyped_after_relay :
    let last := after relay {} [.run {}, .sendToPort "source.out" (.bool false)]
    relay.WellTyped ∧ (last.model.port? ⟨"sink", "in"⟩).bind Port.value = some (.bool false) ∧
      last.model.outline = relay.outline ∧ last.model.WellTyped := by
  refine ⟨wellTyped_relay, ?_, wellTyped_after wellTyped_relay {} _⟩
  decide +kernel

end Simulation
end Archflow
