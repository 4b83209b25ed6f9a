import Archflow.Wiring
import Mathlib.Data.List.Basic
import Mathlib.Data.List.Induction

/-!
Schedules. A declared flow is served by the first link between its ports. That link belongs to the
first of all flows between them, where the flows of connectors come before declared ones; a declared
flow has a link of its own only if it is that flow itself (`exists_link_of_declared`).
-/
namespace Archflow

def Flow.joins (source target : PortRef) (flow : Flow) : Bool :=
  flow.source == source && flow.target == target

@[simp] theorem Flow.joins_self (flow : Flow) : flow.joins flow.source flow.target = true := by
  simp [joins]

def Link.flow (link : Link) : Flow := ⟨link.source, link.target, link.type⟩

@[simp] theorem Link.flow_ofFlow (flow : Flow) (connector : Option String) :
    (Link.ofFlow flow connector).flow = flow := rfl

namespace Model

def connectorFlows (model : Model) : List Flow := model.connectors.items.flatMap Connector.flows

/-- The first of all flows between two ports. -/
def rulingFlow? (model : Model) (source target : PortRef) : Option Flow :=
  (model.connectorFlows ++ model.flows).find? (Flow.joins source target)

end Model

namespace Wiring

def flows (wiring : Wiring) : List Flow := wiring.links.map Link.flow

theorem exists_of_linkBetween? {wiring : Wiring} {source target : PortRef} {index : Nat}
    (h : wiring.linkBetween? source target = some index) :
    ∃ link, wiring.links[index]? = some link ∧
      wiring.flows.find? (Flow.joins source target) = some link.flow := by
  obtain ⟨hlt, hjoins, hbefore⟩ := List.findIdx?_eq_some_iff_getElem.1 h
  refine ⟨wiring.links[index], List.getElem?_eq_getElem hlt, ?_⟩
  have hfirst : wiring.links.find? (Flow.joins source target ∘ Link.flow) =
      some wiring.links[index] := by
    refine List.find?_eq_some_iff_getElem.2 ⟨hjoins, index, hlt, rfl, fun j hj => ?_⟩
    exact (Bool.not_eq_true' _).mpr (Bool.eq_false_iff.2 (hbefore j hj))
  rw [flows, List.find?_map, hfirst, Option.map_some]

/-- A link that is added is found between its ports if no other one is. -/
theorem linkBetween?_addLink (wiring : Wiring) (link : Link) (source target : PortRef) :
    (wiring.addLink link).linkBetween? source target = (wiring.linkBetween? source target).or
      (if link.flow.joins source target then some wiring.links.length else none) := by
  change (wiring.links ++ [link]).findIdx? _ = _
  rw [List.findIdx?_append, List.findIdx?_singleton]
  congr 1
  change Option.map _ (if link.flow.joins source target then some 0 else none) = _
  split
  · rw [Option.map_some, Nat.zero_add]
  · rw [Option.map_none]

/-! Wiring up a model. -/

theorem links_foldl_addLink (links : List Link) (wiring : Wiring) :
    (links.foldl addLink wiring).links = wiring.links ++ links ∧
      (links.foldl addLink wiring).schedule = wiring.schedule := by
  induction links generalizing wiring with
  | nil => simp
  | cons link rest ih =>
    obtain ⟨hlinks, hschedule⟩ := ih (wiring.addLink link)
    refine ⟨?_, hschedule⟩
    rw [List.foldl_cons, hlinks, addLink, List.append_assoc, List.singleton_append]

theorem flows_connectorLinks (model : Model) :
    (connectorLinks model).map Link.flow = model.connectorFlows := by
  simp [connectorLinks, Model.connectorFlows, List.map_flatMap, Function.comp_def]

/-- The declared flows are scheduled in order, each over the link between its ports, and the first
flow between any two ports is the one that has a link. -/
structure Serves (wiring : Wiring) (connected declared : List Flow) : Prop where
  length_eq : wiring.schedule.length = declared.length
  scheduled : ∀ (i : Nat) (flow : Flow), declared[i]? = some flow → ∃ index,
    wiring.schedule[i]? = some index ∧ wiring.linkBetween? flow.source flow.target = some index
  first : ∀ source target, wiring.flows.find? (Flow.joins source target) =
    (connected ++ declared).find? (Flow.joins source target)

namespace Serves

variable {wiring : Wiring} {connected declared : List Flow}

theorem schedule_append (h : wiring.Serves connected declared) {flow : Flow} {index : Nat}
    {next : Wiring} (hschedule : next.schedule = wiring.schedule ++ [index])
    (hindex : next.linkBetween? flow.source flow.target = some index)
    (hkept : ∀ source target found, wiring.linkBetween? source target = some found →
      next.linkBetween? source target = some found) (i : Nat) (other : Flow)
    (hother : (declared ++ [flow])[i]? = some other) :
    ∃ found, next.schedule[i]? = some found ∧
      next.linkBetween? other.source other.target = some found := by
  rw [hschedule]
  rcases Nat.lt_or_ge i declared.length with hlt | hge
  · rw [List.getElem?_append_left hlt] at hother
    obtain ⟨found, hfound, hlinked⟩ := h.scheduled i other hother
    rw [List.getElem?_append_left (h.length_eq ▸ hlt)]
    exact ⟨found, hfound, hkept _ _ _ hlinked⟩
  · have hlast : i < (declared ++ [flow]).length := (List.getElem?_eq_some_iff.1 hother).1
    have hi : i = declared.length := by
      rw [List.length_append, List.length_singleton] at hlast
      omega
    subst hi
    rw [List.getElem?_concat_length] at hother
    cases hother
    refine ⟨index, ?_, hindex⟩
    rw [← h.length_eq, List.getElem?_concat_length]

theorem addFlow (h : wiring.Serves connected declared) (flow : Flow) :
    (wiring.addFlow flow).Serves connected (declared ++ [flow]) := by
  have hsplit (source target : PortRef) :
      (connected ++ (declared ++ [flow])).find? (Flow.joins source target) =
        (wiring.flows.find? (Flow.joins source target)).or
          ([flow].find? (Flow.joins source target)) := by
    rw [← List.append_assoc, List.find?_append, h.first]
  unfold Wiring.addFlow
  cases hlink : wiring.linkBetween? flow.source flow.target with
  | some index =>
    refine ⟨by simp [h.length_eq], h.schedule_append rfl hlink fun _ _ _ => id, fun source target => ?_⟩
    rw [hsplit]
    change wiring.flows.find? (Flow.joins source target) = _
    by_cases hjoins : flow.joins source target = true
    · -- The ports are joined already, so the new flow is not the first one.
      obtain ⟨rfl, rfl⟩ : flow.source = source ∧ flow.target = target := by
        simpa [Flow.joins] using hjoins
      obtain ⟨link, _, hfound⟩ := exists_of_linkBetween? hlink
      rw [hfound, Option.some_or]
    · rw [List.find?_singleton, if_neg hjoins, Option.or_none]
  | none =>
    let next : Wiring := { wiring.addLink (.ofFlow flow none) with
      schedule := wiring.schedule ++ [wiring.links.length] }
    have hlinkBetween (source target : PortRef) : next.linkBetween? source target =
        (wiring.linkBetween? source target).or
          (if flow.joins source target then some wiring.links.length else none) :=
      wiring.linkBetween?_addLink (.ofFlow flow none) source target
    have hown : next.linkBetween? flow.source flow.target = some wiring.links.length := by
      rw [hlinkBetween, hlink, if_pos flow.joins_self, Option.none_or]
    have hkept (source target : PortRef) (found : Nat)
        (hfound : wiring.linkBetween? source target = some found) :
        next.linkBetween? source target = some found := by
      rw [hlinkBetween, hfound, Option.some_or]
    refine ⟨by simp [h.length_eq], h.schedule_append rfl hown hkept, fun source target => ?_⟩
    have hflows : next.flows = wiring.flows ++ [flow] := by simp [next, flows, addLink]
    change next.flows.find? _ = _
    rw [hsplit, hflows, List.find?_append]

end Serves

/-- Before any flow is declared, the flows of connectors are the only ones. -/
theorem serves_connectorLinks (model : Model) :
    ((connectorLinks model).foldl addLink {}).Serves model.connectorFlows [] := by
  obtain ⟨hlinks, hschedule⟩ := links_foldl_addLink (connectorLinks model) {}
  refine ⟨by rw [hschedule]; rfl, nofun, fun source target => ?_⟩
  rw [Wiring.flows, hlinks, List.nil_append, flows_connectorLinks, List.append_nil]

theorem serves_foldl_addFlow (model : Model) (declared : List Flow) : (declared.foldl addFlow
    ((connectorLinks model).foldl addLink {})).Serves model.connectorFlows declared := by
  induction declared using List.reverseRecOn with
  | nil => exact serves_connectorLinks model
  | append_singleton earlier flow ih =>
    rw [List.foldl_concat]
    exact ih.addFlow flow

theorem ofModel_of_flows {model : Model} (h : model.flows ≠ []) :
    ofModel model = model.flows.foldl addFlow ((connectorLinks model).foldl addLink {}) := by
  unfold ofModel
  rw [if_neg (by simpa using h)]

theorem serves_ofModel {model : Model} (h : model.flows ≠ []) :
    (ofModel model).Serves model.connectorFlows model.flows := by
  rw [ofModel_of_flows h]
  exact serves_foldl_addFlow model model.flows

theorem exists_link_of_declared {model : Model} {i : Nat} {flow : Flow}
    (h : model.flows[i]? = some flow) :
    ∃ index link, (ofModel model).schedule[i]? = some index ∧
      (ofModel model).links[index]? = some link ∧
      model.rulingFlow? flow.source flow.target = some link.flow := by
  have hdeclared : model.flows ≠ [] := by
    intro hnil
    rw [hnil] at h
    cases h
  have hserves := serves_ofModel hdeclared
  obtain ⟨index, hscheduled, hindex⟩ := hserves.scheduled i flow h
  obtain ⟨link, hlink, hfirst⟩ := exists_of_linkBetween? hindex
  exact ⟨index, link, hscheduled, hlink, by rw [Model.rulingFlow?, ← hserves.first, hfirst]⟩

end Wiring
end Archflow
