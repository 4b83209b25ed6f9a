import Archflow.Proofs.Contract
import Archflow.Proofs.Delegation
import Archflow.Proofs.Propagation
import Archflow.Proofs.Schedule

/-!
Payload types of declared flows. A delivery checks a value against the type of the link that it
crosses, and the link of a declared flow belongs to the first flow between its ports. So what a run
lets land for a declared flow is of the type of that first flow (`declared_flow_ruled`), which is
the type of the declared flow itself only if no flow before it has another one.
-/
namespace Archflow

/-! Checks that pass. -/

theorem SymbolTable.check_of_conforms {symbols : SymbolTable} {value : Value} {type : TypeRef}
    {slot : Slot} (h : symbols.conforms value type = true) :
    symbols.check value type slot = .ok () := by
  rw [check, if_pos h]

namespace Constraint

theorem requireIf_of_met {condition : Option Expr} {env : Env} (name : String)
    (h : Met condition env) : requireIf name condition env = .ok () := by
  cases condition with
  | none => rfl
  | some expr =>
    rw [requireIf, require, h expr rfl]
    rfl

theorem check_of_met {constraint : Constraint} {env : Env} (hpre : Met constraint.precondition env)
    (hpost : Met constraint.postcondition env) : constraint.check env = .ok () := by
  rw [check, checkPre, checkPost, requireIf_of_met _ hpre, requireIf_of_met _ hpost]
  rfl

end Constraint

namespace Model

variable {model : Model} {i : Nat} {flow : Flow}

/-- No flow before a declared one that joins the same ports has another type. -/
def Undisputed (model : Model) (i : Nat) (flow : Flow) : Prop :=
  ∀ other ∈ model.connectorFlows ++ model.flows.take i,
    other.joins flow.source flow.target = true → other.type = flow.type

theorem type_of_undisputed (hflow : model.flows[i]? = some flow) (h : model.Undisputed i flow)
    {ruling : Flow} (hruling : model.rulingFlow? flow.source flow.target = some ruling) :
    ruling.type = flow.type := by
  obtain ⟨hlt, hget⟩ := List.getElem?_eq_some_iff.1 hflow
  have hsplit : model.flows = model.flows.take i ++ flow :: model.flows.drop (i + 1) := by
    rw [← hget, ← List.drop_eq_getElem_cons hlt, List.take_append_drop]
  -- The flow itself is the last one that can be the first to join its ports.
  rw [rulingFlow?, hsplit, ← List.append_assoc, List.find?_append, List.find?_cons_of_pos flow.joins_self]
    at hruling
  cases hfound : (model.connectorFlows ++ model.flows.take i).find?
    (Flow.joins flow.source flow.target) with
  | some first =>
    rw [hfound, Option.some_or] at hruling
    cases hruling
    exact h ruling (List.mem_of_find?_eq_some hfound) (List.find?_some hfound)
  | none =>
    rw [hfound, Option.none_or] at hruling
    cases hruling
    rfl

end Model

namespace Simulation

/-! What one transmission lets land. -/

section
variable {model : Model} {config : Config} {sim : Simulation} {index : Nat} {link : Link}
  {raw carried value : Value} {targets : List PortRef}

theorem transformed_of_carries (halike : Alike (.new model config) sim)
    (h : model.Carries link raw carried) :
    ∃ ran, sim.transformed (sim.functionsOf link).transform raw = (.ok carried, ran) := by
  rw [halike.functionsOf_eq]
  cases htransform : (model.functionsOf link).transform with
  | none => exact ⟨sim, by rw [h.untransformed htransform]; rfl⟩
  | some name =>
    obtain ⟨exe, hexe, hrun⟩ := h.transformed name htransform
    refine ⟨sim.record name .exec (some (exe.callRecord [raw])) (some carried), ?_⟩
    simp only [transformed, runTransform, halike.executables_eq, hexe, halike.symbols_eq, hrun]

theorem checkCarried_of_carries (halike : Alike (.new model config) sim)
    (h : model.Carries link raw carried) :
    sim.checkCarried link (sim.functionsOf link).constraint raw carried = .ok () := by
  rw [halike.functionsOf_eq, checkCarried, halike.symbols_eq, SymbolTable.check_of_conforms h.typed]
  cases hconstraint : (model.functionsOf link).constraint with
  | none => rfl
  | some name =>
    obtain ⟨constraint, hfound, hpre, hpost⟩ := h.constrained name hconstraint
    have hchecked : sim.checkConstraint name raw carried = .ok () := by
      simp only [checkConstraint, halike.constraints_eq, hfound, halike.symbols_eq]
      exact Constraint.check_of_met hpre hpost
    simp only [Option.forM, hchecked]
    rfl

/-- What the link carries lands on all ports that its target reaches. -/
theorem landings_deliver (halike : Alike (.new model config) sim)
    (hlink : sim.wiring.links[index]? = some link) (hcarries : model.Carries link raw carried)
    (htargets : model.receiveTargets config.maxCascadeDepth link.target carried = .ok targets) :
    landings (sim.deliverHistory ⟨index, raw⟩) = targets.map (·, carried) := by
  obtain ⟨ran, htransformed⟩ := transformed_of_carries halike hcarries
  have hran : Alike (.new model config) ran := by
    have hleads := (sim.transformed_cases (sim.functionsOf link).transform raw).2
    rw [htransformed] at hleads
    exact halike.trans hleads.alike.1
  have hfunctions : sim.functionsOf link = ran.functionsOf link := by
    rw [halike.functionsOf_eq, hran.functionsOf_eq]
  have hchecked := checkCarried_of_carries hran hcarries
  have hreceived : ran.receiveHistory link.target carried = landHistory carried targets ran := by
    simp only [receiveHistory, hran.receiveTargets_eq, htargets]
  have hquiet := sim.landings_transform (sim.functionsOf link).transform raw
  have hlands := landings_lands carried targets ran
  unfold landings at hquiet hlands ⊢
  rw [← hfunctions] at hchecked
  simp only [deliverHistory, hlink, htransformed, hchecked, hreceived, collect_append, hquiet,
    hlands, List.nil_append]

/-- A value lands on the target of a link if the link makes it of the raw value and all ports that
it reaches accept it, and in no other case. -/
theorem mem_landings_deliver_iff (halike : Alike (.new model config) sim)
    (hlink : sim.wiring.links[index]? = some link) :
    (link.target, value) ∈ landings (sim.deliverHistory ⟨index, raw⟩) ↔
      model.Carries link raw value ∧
        ∃ targets, model.receiveTargets config.maxCascadeDepth link.target value = .ok targets := by
  constructor
  · intro hmem
    rcases deliver_contract halike ⟨index, raw⟩ with
      hnone | ⟨found, carried, targets, calls, ran, hfound, hcarries, htargets, -, hhistory, hcalls⟩
    · obtain ⟨earlier, before, event, later, hsplit, hland⟩ := exists_of_mem_collect hmem
      have hunchanged := hnone ⟨before, event⟩ (by simp [hsplit])
      rw [Event.eq_land hland] at hunchanged
      cases hunchanged
    · obtain rfl : found = link := Option.some.inj (hfound.symm.trans hlink)
      have hquiet : collect Event.land? calls = [] := collect_eq_nil fun moment hmoment => by
        obtain ⟨_, _, _, hevent⟩ := hcalls moment hmoment
        rw [hevent]
        rfl
      have hlands := landings_lands carried targets ran
      unfold landings at hmem hlands
      rw [hhistory, collect_append, hquiet, hlands, List.nil_append] at hmem
      obtain ⟨_, _, hsame⟩ := List.mem_map.1 hmem
      cases hsame
      exact ⟨hcarries, targets, htargets⟩
  · rintro ⟨hcarries, targets, htargets⟩
    rw [landings_deliver halike hlink hcarries htargets]
    exact List.mem_map_of_mem ((Model.mem_receiveTargets_iff htargets).2 ⟨0, .itself⟩)

/-- In a transmission over idle channels nothing lands but in the delivery of its value. -/
theorem landings_transmit (hlink : sim.wiring.links[index]? = some link) (hidle : sim.wiring.Idle)
    (raw : Value) :
    let taken := (Event.deliver link.channel ⟨index, raw⟩).effect (sim.claimed link ⟨index, raw⟩)
    Alike sim taken ∧
      landings (sim.transmitHistory index raw) = landings (taken.deliverHistory ⟨index, raw⟩) := by
  intro taken
  have hfails (outcome : Except Fault Unit) (failing : Simulation) :
      collect Event.land? (failing.failHistory link.channel .log (some raw) outcome) = [] := by
    cases outcome <;> rfl
  refine ⟨((Alike.effect (.transmit index raw) sim).trans (.effect (.claim link.channel) _)).trans
    (.effect (.deliver link.channel ⟨index, raw⟩) _), ?_⟩
  rw [(transmit_idle hlink hidle raw).1]
  unfold landings serveHistory
  split <;> simp [Event.land?, hfails, taken]

theorem mem_landings_transmit_iff (halike : Alike (.new model config) sim) (hidle : sim.wiring.Idle)
    (hlink : sim.wiring.links[index]? = some link) :
    (link.target, value) ∈ landings (sim.transmitHistory index raw) ↔
      model.Carries link raw value ∧
        ∃ targets, model.receiveTargets config.maxCascadeDepth link.target value = .ok targets := by
  obtain ⟨htaken, hlandings⟩ := landings_transmit hlink hidle raw
  rw [hlandings]
  exact mem_landings_deliver_iff (halike.trans htaken) (htaken.links ▸ hlink)

end

/-! The run at an entry of the schedule. -/

theorem foldHistory_append {α : Type} {step : Simulation → α → Simulation}
    {history : Simulation → α → List Moment} (first second : List α) (sim : Simulation) :
    foldHistory step history (first ++ second) sim =
      foldHistory step history first sim ++ foldHistory step history second (first.foldl step sim) := by
  induction first generalizing sim with
  | nil => rfl
  | cons item rest ih => simp only [List.cons_append, foldHistory, ih, List.foldl_cons, List.append_assoc]

def reaching (model : Model) (config : Config) (ports : List (String × Value)) (i : Nat) : Simulation :=
  ((seeded model config ports).wiring.schedule.take i).foldl
    (fun sim index => sim.unlessHalted (·.propagate index)) (seeded model config ports)

def servingHistory (sim : Simulation) (index : Nat) : List Moment :=
  sim.unlessHaltedHistory (·.propagateHistory index)

section
variable {model : Model} {config : Config} {sim : Simulation} {i index : Nat} {link : Link} {raw : Value}

theorem reaching_begins (model : Model) (config : Config) (ports : List (String × Value)) (i : Nat) :
    Alike (.new model config) (reaching model config ports i) ∧
      (reaching model config ports i).wiring.Idle := by
  have hserved (sim : Simulation) (index : Nat) :
      Driven sim (sim.servingHistory index) (sim.unlessHalted (·.propagate index)) :=
    unlessHalted_driven (sim.propagate_driven index)
  have hdriven := (seeded_driven model config ports).append (foldl_driven hserved
    ((seeded model config ports).wiring.schedule.take i) _)
  have hidle : (new model config).wiring.Idle := Wiring.idle_ofModel model
  exact ⟨hdriven.leads.alike.1, (hdriven.exact (.new model config) hidle).1⟩

/-- Serving a link of the schedule is a part of the run. -/
theorem servingHistory_infix (inputs : Inputs)
    (h : (Wiring.ofModel model).schedule[i]? = some index) :
    (reaching model config inputs.ports i).servingHistory index <:+:
      simulateHistory model config inputs := by
  cases hhalted : (seeded model config inputs.ports).halted with
  | true =>
    -- A run that has halted by then serves no link at all.
    have hskipped (sim : Simulation) (index : Nat) (hstopped : sim.halted = true) :
        sim.servingHistory index = [] ∧ sim.unlessHalted (·.propagate index) = sim :=
      unlessHalted_skipped hstopped _ _
    have hsame : reaching model config inputs.ports i = seeded model config inputs.ports :=
      (foldl_skipped hskipped _ hhalted).2
    have hnone : (reaching model config inputs.ports i).servingHistory index = [] := by
      rw [hsame]
      exact (hskipped _ index hhalted).1
    rw [hnone]
    exact List.nil_infix
  | false =>
    have halike := (seeded_driven model config inputs.ports).leads.alike.1
    obtain ⟨hlt, hget⟩ := List.getElem?_eq_some_iff.1 (halike.schedule ▸ h)
    have hsplit := List.take_append_drop i (seeded model config inputs.ports).wiring.schedule
    rw [List.drop_eq_getElem_cons hlt, hget] at hsplit
    have hserving : (reaching model config inputs.ports i).servingHistory index <:+:
        (seeded model config inputs.ports).propagateFlowsHistory := by
      rw [propagateFlowsHistory, ← hsplit, foldHistory_append]
      exact ⟨_, _, List.append_assoc ..⟩
    have hpropagated : (seeded model config inputs.ports).unlessHaltedHistory propagateFlowsHistory =
        (seeded model config inputs.ports).propagateFlowsHistory := if_neg (by simp [hhalted])
    rw [simulateHistory_eq, propagatedHistory, hpropagated]
    exact hserving.trans ((List.suffix_append ..).isInfix.trans (List.prefix_append ..).isInfix)

/-- Serving a link does nothing, or begins with the transmission of what its source holds. -/
theorem servingHistory_cases (sim : Simulation) (index : Nat) :
    sim.servingHistory index = [] ∨ ∃ link raw later, sim.wiring.links[index]? = some link ∧
      sim.held link.source = some raw ∧
      sim.servingHistory index = sim.transmitHistory index raw ++ later := by
  unfold servingHistory unlessHaltedHistory propagateHistory held
  split
  · exact .inl rfl
  · dsimp only
    split
    · exact .inl rfl
    · cases hlink : sim.wiring.links[index]? with
      | none => exact .inl rfl
      | some link =>
        cases hheld : (sim.model.port? link.source).bind Port.value with
        | none => exact .inl (by simp [hheld])
        | some raw =>
          refine .inr ⟨link, raw, (sim.transmit index raw).drainHistory, rfl, hheld, ?_⟩
          simp only [Option.bind_some, hheld]

theorem servingHistory_begins
    (h : (sim.servingHistory index).head? = some ⟨sim, .transmit index raw⟩) :
    sim.transmitHistory index raw <+: sim.servingHistory index := by
  rcases sim.servingHistory_cases index with hnone | ⟨link, held, later, hlink, -, hserving⟩
  · rw [hnone] at h
    cases h
  · obtain ⟨rest, hcons, -⟩ := transmitHistory_cons hlink held
    rw [hserving, hcons] at h
    cases h
    exact ⟨later, hserving.symm⟩

end

/-- What a run lets land for a declared flow is of the type of the first flow between its ports. The
flow is scheduled over the link of that first flow. Whenever the run transmits a value for it, a
value lands on its target exactly if the link makes it of what was transmitted and all ports that
it reaches accept it; so it is of the type of the declared flow as well if no flow before that one
has another type. -/
theorem declared_flow_ruled (model : Model) (config : Config) (inputs : Inputs) {i : Nat} {flow : Flow}
    (hflow : model.flows[i]? = some flow) :
    let sim := reaching model config inputs.ports i
    ∃ index link, (Wiring.ofModel model).schedule[i]? = some index ∧
      (Wiring.ofModel model).links[index]? = some link ∧
      model.rulingFlow? flow.source flow.target = some link.flow ∧
      sim.servingHistory index <:+: simulateHistory model config inputs ∧
      ∀ raw, (sim.servingHistory index).head? = some ⟨sim, .transmit index raw⟩ →
        sim.transmitHistory index raw <+: sim.servingHistory index ∧
        ∀ value, ((flow.target, value) ∈ landings (sim.transmitHistory index raw) ↔
            model.Carries link raw value ∧
              ∃ targets, model.receiveTargets config.maxCascadeDepth flow.target value = .ok targets) ∧
          ((flow.target, value) ∈ landings (sim.transmitHistory index raw) →
            model.symbols.conforms value link.type = true ∧
              (model.Undisputed i flow → model.symbols.conforms value flow.type = true)) := by
  intro sim
  obtain ⟨index, link, hscheduled, hlink, hruling⟩ := Wiring.exists_link_of_declared hflow
  obtain ⟨halike, hidle⟩ := reaching_begins model config inputs.ports i
  refine ⟨index, link, hscheduled, hlink, hruling, servingHistory_infix inputs hscheduled,
    fun raw hserving => ⟨servingHistory_begins hserving, fun value => ?_⟩⟩
  have hjoins : link.flow.joins flow.source flow.target = true := List.find?_some hruling
  have htarget : link.target = flow.target := by
    simp only [Flow.joins, Bool.and_eq_true, beq_iff_eq] at hjoins
    exact hjoins.2
  have hlands := @mem_landings_transmit_iff model config sim index link raw value halike hidle
    (halike.links ▸ hlink)
  rw [htarget] at hlands
  refine ⟨hlands, fun hmem => ?_⟩
  have htyped := (hlands.1 hmem).1.typed
  refine ⟨htyped, fun hundisputed => ?_⟩
  rw [← Model.type_of_undisputed hflow hundisputed hruling]
  exact htyped

/-- A transmission is what serving a link begins with, if the link is due and its source holds a
value. -/
theorem head?_servingHistory {sim : Simulation} {index : Nat} {link : Link} {raw : Value}
    (hlive : sim.halted = false) (hfresh : sim.transmitted.contains index = false)
    (hlink : sim.wiring.links[index]? = some link) (hheld : sim.held link.source = some raw) :
    (sim.servingHistory index).head? = some ⟨sim, .transmit index raw⟩ := by
  have hsource : (sim.model.port? link.source).bind Port.value = some raw := hheld
  obtain ⟨later, hcons, -⟩ := transmitHistory_cons hlink raw
  simp only [servingHistory, unlessHaltedHistory, hlive, propagateHistory, hfresh, hlink,
    Option.bind_some, hsource, hcons, Bool.false_eq_true, if_false, List.cons_append, List.head?_cons]

end Simulation

/-- A wire that carries one type, and a flow between the same ports that is declared with another.
The source holds a value from the beginning. -/
def twiceTyped (carried declared : TypeRef) (value : Value) : Model where
  name := "twiceTyped"
  components := .ofList [
    ("source", {
      name := "source"
      ports := [⟨"out", .output, "source", .any, some value⟩] }),
    ("sink", {
      name := "sink"
      ports := [⟨"in", .input, "sink", .any, none⟩] })]
  connectors := .ofList [("wire", {
    name := "wire"
    flows := [⟨⟨"source", "out"⟩, ⟨"sink", "in"⟩, carried⟩] })]
  flows := [⟨⟨"source", "out"⟩, ⟨"sink", "in"⟩, declared⟩]

namespace Simulation

/-- The flow and the wire agree, and what lands is of their type. -/
theorem declared_flow_ruled_agreed :
    let model := twiceTyped .integer .integer (.int 7)
    let sim := reaching model {} [] 0
    model.flows[0]? = some ⟨⟨"source", "out"⟩, ⟨"sink", "in"⟩, .integer⟩ ∧
      (sim.servingHistory 0).head? = some ⟨sim, .transmit 0 (.int 7)⟩ ∧
      (⟨"sink", "in"⟩, .int 7) ∈ landings (sim.transmitHistory 0 (.int 7)) ∧
      model.symbols.conforms (.int 7) .integer = true := by
  intro model sim
  have hflow : model.flows[0]? = some ⟨⟨"source", "out"⟩, ⟨"sink", "in"⟩, .integer⟩ := rfl
  have hheld : sim.held ⟨"source", "out"⟩ = some (.int 7) := by decide +kernel
  have hlink : sim.wiring.links[0]? =
      some (.ofFlow ⟨⟨"source", "out"⟩, ⟨"sink", "in"⟩, .integer⟩ (some "wire")) := by decide +kernel
  have hhead : (sim.servingHistory 0).head? = some ⟨sim, .transmit 0 (.int 7)⟩ :=
    head?_servingHistory (by decide +kernel) (by decide +kernel) hlink hheld
  have hlands : landings (sim.transmitHistory 0 (.int 7)) = [(⟨"sink", "in"⟩, .int 7)] := by
    decide +kernel
  have hmem : (⟨"sink", "in"⟩, .int 7) ∈ landings (sim.transmitHistory 0 (.int 7)) := by
    rw [hlands]
    exact List.mem_singleton.2 rfl
  have hundisputed : model.Undisputed 0 ⟨⟨"source", "out"⟩, ⟨"sink", "in"⟩, .integer⟩ := by
    unfold Model.Undisputed
    decide +kernel
  obtain ⟨index, link, hscheduled, -, -, -, hlanded⟩ := declared_flow_ruled model {} {} hflow
  obtain rfl : 0 = index := Option.some.inj ((show _ = some 0 by decide +kernel).symm.trans hscheduled)
  exact ⟨hflow, hhead, hmem, (((hlanded (.int 7) hhead).2 (.int 7)).2 hmem).2 hundisputed⟩

/-- A text lands on the target of a flow that is declared to carry integers. -/
theorem misdeclared_text :
    let model := twiceTyped .any .integer (.text "warm")
    let sim := reaching model {} [] 0
    (∃ session, Session.load model {} = .ok session) ∧
      model.flows[0]? = some ⟨⟨"source", "out"⟩, ⟨"sink", "in"⟩, .integer⟩ ∧
      (Wiring.ofModel model).schedule[0]? = some 0 ∧
      sim.servingHistory 0 <:+: simulateHistory model {} {} ∧
      (sim.servingHistory 0).head? = some ⟨sim, .transmit 0 (.text "warm")⟩ ∧
      (⟨"sink", "in"⟩, .text "warm") ∈ landings (sim.transmitHistory 0 (.text "warm")) ∧
      model.symbols.conforms (.text "warm") .integer = false := by
  intro model sim
  have hheld : sim.held ⟨"source", "out"⟩ = some (.text "warm") := by decide +kernel
  have hlink : sim.wiring.links[0]? =
      some (.ofFlow ⟨⟨"source", "out"⟩, ⟨"sink", "in"⟩, .any⟩ (some "wire")) := by decide +kernel
  have hscheduled : (Wiring.ofModel model).schedule[0]? = some 0 := by decide +kernel
  have hlands : landings (sim.transmitHistory 0 (.text "warm")) =
      [(⟨"sink", "in"⟩, .text "warm")] := by decide +kernel
  refine ⟨⟨_, rfl⟩, rfl, hscheduled, servingHistory_infix {} hscheduled,
    head?_servingHistory (by decide +kernel) (by decide +kernel) hlink hheld, ?_, by decide +kernel⟩
  rw [hlands]
  exact List.mem_singleton.2 rfl

end Simulation
end Archflow
