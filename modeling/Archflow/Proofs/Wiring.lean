import Archflow.Proofs.Schedule
import Mathlib.Data.List.Forall2
import Mathlib.Order.Bounds.Basic

/-!
The wiring of a model holds its links in a list, files their indices under the ports that they
leave, opens their channels, and schedules them. All of this grows while it is searched for links
that are there already. The views agree in the end (`wires_ofModel`): every flow of a connector has
a link, a declared flow has one if no flow before it joins the same ports, and each port and each
entry of the schedule leads to the links it should.
-/
namespace Archflow

namespace Flow

/-- The flows whose ports no flow before them joins, neither one of the list nor one of those that
come before all of the list. -/
def firsts (before flows : List Flow) : List Flow :=
  (flows.zipIdx.filter fun entry =>
    !(before ++ flows.take entry.2).any (joins entry.1.source entry.1.target)).map Prod.fst

@[simp] theorem firsts_nil (before : List Flow) : firsts before [] = [] := rfl

theorem firsts_concat (before flows : List Flow) (flow : Flow) :
    firsts before (flows ++ [flow]) = firsts before flows ++
      if (before ++ flows).any (joins flow.source flow.target) then [] else [flow] := by
  unfold firsts
  rw [List.zipIdx_append, List.filter_append, List.map_append]
  congr 1
  · -- The flows that come before an earlier one are still the same.
    congr 1
    refine List.filter_congr fun entry hentry => ?_
    have hlt : entry.2 < flows.length := (List.getElem?_eq_some_iff.1
      (List.mem_zipIdx_iff_getElem?.1 hentry)).1
    rw [List.take_append_of_le_length hlt.le]
  · rw [List.zipIdx_singleton, Nat.zero_add, List.filter_singleton, List.take_left]
    cases (before ++ flows).any (joins flow.source flow.target) <;> rfl

end Flow

namespace Wiring

/-! Every wiring arises from the empty one by adding links and changing the schedule. -/

theorem ofModel_induction {motive : Wiring → Prop} (model : Model) (empty : motive {})
    (addLink : ∀ wiring link, motive wiring → motive (wiring.addLink link))
    (reschedule : ∀ wiring schedule, motive wiring → motive { wiring with schedule }) :
    motive (ofModel model) := by
  have hlinks : motive ((connectorLinks model).foldl Wiring.addLink {}) :=
    List.foldlRecOn _ _ empty fun wiring h link _ => addLink wiring link h
  unfold ofModel
  dsimp only
  split
  · exact reschedule _ _ hlinks
  · refine List.foldlRecOn _ _ hlinks fun wiring h flow _ => ?_
    unfold addFlow
    split
    · exact reschedule _ _ h
    · exact reschedule _ _ (addLink _ _ h)

/-! The links that leave a port. -/

theorem linksFrom_file (wiring : Wiring) (source port : PortRef) (index : Nat)
    (outgoing : List (PortRef × List Nat)) :
    { wiring with outgoing := file source index outgoing }.linksFrom port =
      if port = source then { wiring with outgoing }.linksFrom port ++ [index]
      else { wiring with outgoing }.linksFrom port := by
  induction outgoing with
  | nil =>
    by_cases hport : source = port
    · simp [linksFrom, file, hport]
    · simp [linksFrom, file, hport, Ne.symm hport]
  | cons entry rest ih =>
    obtain ⟨key, indices⟩ := entry
    unfold linksFrom at ih ⊢
    unfold file
    by_cases hkey : key = source
    · by_cases hport : source = port
      · simp [hkey, hport]
      · simp [hkey, hport, Ne.symm hport]
    · by_cases hport : key = port
      · have hother : port ≠ source := fun heq => hkey (hport.trans heq)
        simp [hport, hother]
      · simp only [hkey, if_false, List.find?_cons, beq_eq_false_iff_ne.2 hport]
        exact ih

theorem linksFrom_addLink (wiring : Wiring) (link : Link) (port : PortRef) :
    (wiring.addLink link).linksFrom port =
      if port = link.source then wiring.linksFrom port ++ [wiring.links.length]
      else wiring.linksFrom port :=
  wiring.linksFrom_file ..

def leavesAt (wiring : Wiring) (port : PortRef) (index : Nat) : Bool :=
  wiring.links[index]?.map Link.source == some port

theorem leavesAt_iff {wiring : Wiring} {port : PortRef} {index : Nat} :
    wiring.leavesAt port index = true ↔
      ∃ link, wiring.links[index]? = some link ∧ link.source = port := by
  rw [leavesAt, beq_iff_eq, Option.map_eq_some_iff]

theorem lt_of_leavesAt {wiring : Wiring} {port : PortRef} {index : Nat}
    (h : wiring.leavesAt port index = true) : index < wiring.links.length := by
  obtain ⟨link, hlink, -⟩ := leavesAt_iff.1 h
  exact (List.getElem?_eq_some_iff.1 hlink).1

/-- The indices that are filed under a port are those of the links that leave it, in order. -/
theorem linksFrom_ofModel (model : Model) (port : PortRef) :
    (ofModel model).linksFrom port =
      (List.range (ofModel model).links.length).filter ((ofModel model).leavesAt port) := by
  refine ofModel_induction (motive := fun wiring =>
    wiring.linksFrom port = (List.range wiring.links.length).filter (wiring.leavesAt port)) model
    rfl (fun wiring link h => ?_) (fun wiring schedule h => h)
  have hlength : (wiring.addLink link).links.length = wiring.links.length + 1 := by simp [addLink]
  have hearlier : (List.range wiring.links.length).filter ((wiring.addLink link).leavesAt port) =
      (List.range wiring.links.length).filter (wiring.leavesAt port) := by
    refine List.filter_congr fun index hindex => ?_
    change ((wiring.links ++ [link])[index]?.map Link.source == some port) = _
    rw [List.getElem?_append_left (List.mem_range.1 hindex)]
    rfl
  have hadded : (wiring.addLink link).leavesAt port wiring.links.length = (link.source == port) := by
    change ((wiring.links ++ [link])[wiring.links.length]?.map Link.source == some port) = _
    rw [List.getElem?_concat_length]
    rfl
  rw [linksFrom_addLink, hlength, List.range_succ, List.filter_append, hearlier, h,
    List.filter_singleton, hadded]
  by_cases hport : port = link.source
  · simp [hport]
  · simp [hport, beq_eq_false_iff_ne.2 (Ne.symm hport)]

theorem mem_linksFrom_ofModel {model : Model} {port : PortRef} {index : Nat} :
    index ∈ (ofModel model).linksFrom port ↔
      ∃ link, (ofModel model).links[index]? = some link ∧ link.source = port := by
  rw [linksFrom_ofModel, List.mem_filter, List.mem_range, leavesAt_iff.symm]
  exact and_iff_right_of_imp lt_of_leavesAt

/-! The channels. -/

/-- The channels of the links are open, and no others; nothing is under way. -/
theorem channels_ofModel (model : Model) (name : String) :
    (ofModel model).channels.get? name =
      if name ∈ (ofModel model).links.map Link.channel then some {} else none := by
  refine ofModel_induction (motive := fun wiring => ∀ name, wiring.channels.get? name =
    if name ∈ wiring.links.map Link.channel then some {} else none) model
    (fun _ => rfl) (fun wiring link h name => ?_) (fun wiring schedule h => h) name
  have hidle : wiring.channel link.channel = {} := by
    rw [channel, h]
    split <;> rfl
  simp only [addLink, hidle, Table.get?_insert, h, List.map_append, List.map_singleton,
    List.mem_append, List.mem_singleton]
  by_cases hname : name = link.channel <;> simp [hname]

theorem channel_ofModel (model : Model) (name : String) : (ofModel model).channel name = {} := by
  rw [channel, channels_ofModel]
  split <;> rfl

/-! The list of links. -/

section
variable (model : Model)

theorem links_addFlow (wiring : Wiring) (flow : Flow) :
    (wiring.addFlow flow).links = wiring.links ++
      if (wiring.linkBetween? flow.source flow.target).isSome then [] else [.ofFlow flow none] := by
  unfold addFlow
  cases wiring.linkBetween? flow.source flow.target with
  | some index => simp
  | none => simp [addLink]

/-- Two ports are linked if some flow joins them. -/
theorem Serves.isSome_linkBetween? {wiring : Wiring} {connected declared : List Flow}
    (h : wiring.Serves connected declared) (source target : PortRef) :
    (wiring.linkBetween? source target).isSome =
      (connected ++ declared).any (Flow.joins source target) := by
  have hflows : (wiring.linkBetween? source target).isSome =
      wiring.flows.any (Flow.joins source target) := by
    rw [linkBetween?, List.findIdx?_isSome, flows, List.any_map]
    rfl
  rw [hflows, ← List.isSome_find?, ← List.isSome_find?, h.first]

theorem links_foldl_addFlow (declared : List Flow) :
    (declared.foldl addFlow ((connectorLinks model).foldl addLink {})).links =
      connectorLinks model ++
        (Flow.firsts model.connectorFlows declared).map (Link.ofFlow · none) := by
  induction declared using List.reverseRecOn with
  | nil => simp [(links_foldl_addLink (connectorLinks model) {}).1]
  | append_singleton earlier flow ih =>
    rw [List.foldl_concat, links_addFlow, (serves_foldl_addFlow model earlier).isSome_linkBetween?, ih,
      Flow.firsts_concat, List.map_append, List.append_assoc]
    split <;> rfl

theorem links_ofModel : (ofModel model).links = connectorLinks model ++
    (Flow.firsts model.connectorFlows model.flows).map (Link.ofFlow · none) := by
  by_cases hflows : model.flows = []
  · simp [ofModel, hflows, (links_foldl_addLink (connectorLinks model) {}).1]
  · rw [ofModel_of_flows hflows, links_foldl_addFlow]

end

theorem channel_of_connector {model : Model} {link : Link} {name : String}
    (hlink : link ∈ (ofModel model).links) (hname : link.connector = some name) :
    link.channel = name := by
  simp only [links_ofModel, connectorLinks, List.mem_append, List.mem_flatMap, List.mem_map] at hlink
  rcases hlink with ⟨connector, -, flow, -, rfl⟩ | ⟨flow, -, rfl⟩
  · cases hname
    rfl
  · cases hname

/-! The first link between two ports. -/

def between (wiring : Wiring) (source target : PortRef) : Set Nat :=
  {index | ∃ link, wiring.links[index]? = some link ∧ link.source = source ∧ link.target = target}

theorem linkBetween?_eq_some_iff {wiring : Wiring} {source target : PortRef} {index : Nat} :
    wiring.linkBetween? source target = some index ↔
      IsLeast (wiring.between source target) index := by
  have hmem (i : Nat) (hi : i < wiring.links.length) :
      i ∈ wiring.between source target ↔
        (wiring.links[i].source == source && wiring.links[i].target == target) = true := by
    simp [between, List.getElem?_eq_getElem hi]
  rw [linkBetween?, List.findIdx?_eq_some_iff_getElem]
  constructor
  · rintro ⟨hlt, hjoins, hbefore⟩
    refine ⟨(hmem index hlt).2 hjoins, fun other hother => ?_⟩
    by_contra hless
    have hless : other < index := Nat.lt_of_not_le hless
    exact hbefore other hless ((hmem other (hless.trans hlt)).1 hother)
  · rintro ⟨hindex, hleast⟩
    obtain ⟨link, hlink, -⟩ := id hindex
    have hlt := (List.getElem?_eq_some_iff.1 hlink).1
    refine ⟨hlt, (hmem index hlt).1 hindex, fun other hless hjoins => ?_⟩
    exact Nat.not_le_of_lt hless (hleast ((hmem other (hless.trans hlt)).2 hjoins))

/-- Every link without a connector is the first one between its ports. -/
def DirectFirst (wiring : Wiring) : Prop :=
  ∀ index link, wiring.links[index]? = some link → link.connector = none →
    wiring.linkBetween? link.source link.target = some index

/-- A link without a connector is added only if there is none between its ports. -/
theorem DirectFirst.addFlow {wiring : Wiring} (h : wiring.DirectFirst) (flow : Flow) :
    (wiring.addFlow flow).DirectFirst := by
  unfold Wiring.addFlow
  cases hbetween : wiring.linkBetween? flow.source flow.target with
  | some found => exact h
  | none =>
    intro index link hlink hdirect
    change (wiring.links ++ [Link.ofFlow flow none])[index]? = some link at hlink
    refine (wiring.linkBetween?_addLink (.ofFlow flow none) _ _).trans ?_
    rcases Nat.lt_or_ge index wiring.links.length with hlt | hge
    · rw [List.getElem?_append_left hlt] at hlink
      rw [h index link hlink hdirect, Option.some_or]
    · have hlast : index < wiring.links.length + 1 := by
        simpa using (List.getElem?_eq_some_iff.1 hlink).1
      obtain rfl : index = wiring.links.length := by omega
      rw [List.getElem?_concat_length] at hlink
      cases hlink
      change (wiring.linkBetween? flow.source flow.target).or
        (if flow.joins flow.source flow.target then _ else _) = _
      rw [hbetween, Option.none_or, if_pos flow.joins_self]

theorem directFirst_ofModel (model : Model) : (ofModel model).DirectFirst := by
  have hconnectors : ((connectorLinks model).foldl addLink {}).DirectFirst := by
    intro index link hlink hdirect
    rw [(links_foldl_addLink _ _).1, List.nil_append] at hlink
    have hmem := List.mem_of_getElem? hlink
    simp only [connectorLinks, List.mem_flatMap, List.mem_map] at hmem
    obtain ⟨connector, -, flow, -, rfl⟩ := hmem
    cases hdirect
  by_cases hflows : model.flows = []
  · unfold ofModel
    rw [if_pos (by simpa using hflows)]
    exact hconnectors
  · rw [ofModel_of_flows hflows]
    exact List.foldlRecOn _ _ hconnectors fun _ h flow _ => h.addFlow flow

theorem isLeast_of_direct {model : Model} {index : Nat} {link : Link}
    (hlink : (ofModel model).links[index]? = some link) (hdirect : link.connector = none) :
    IsLeast ((ofModel model).between link.source link.target) index :=
  linkBetween?_eq_some_iff.1 (directFirst_ofModel model index link hlink hdirect)

/-- Every entry of the schedule is the first link between the ports of its flow. -/
theorem Serves.schedule_least {wiring : Wiring} {connected declared : List Flow}
    (h : wiring.Serves connected declared) :
    List.Forall₂ (fun flow index => IsLeast (wiring.between flow.source flow.target) index)
      declared wiring.schedule := by
  refine List.forall₂_iff_get.2 ⟨h.length_eq.symm, fun i hdeclared hscheduled => ?_⟩
  obtain ⟨index, hindex, hfirst⟩ := h.scheduled i declared[i] (List.getElem?_eq_getElem hdeclared)
  obtain rfl : wiring.schedule[i] = index := by
    rwa [List.getElem?_eq_getElem hscheduled, Option.some.injEq] at hindex
  exact linkBetween?_eq_some_iff.1 hfirst

/-! The whole wiring. -/

/-- The links, their order, and what leads to them are those that the flows of the model ask for. -/
structure Wires (wiring : Wiring) (model : Model) : Prop where
  /-- The flows of the connectors come first, in order of the connectors. They are followed by the
  declared flows whose ports no flow before them joins. -/
  links : wiring.links =
    (model.connectors.items.flatMap fun connector =>
      connector.flows.map fun flow => Link.ofFlow flow (some connector.name)) ++
    (Flow.firsts model.connectorFlows model.flows).map fun flow => Link.ofFlow flow none
  /-- No link before one without a connector joins the same ports. -/
  direct_first : ∀ index link, wiring.links[index]? = some link → link.connector = none →
    IsLeast (wiring.between link.source link.target) index
  /-- At most one link from a port to another has no connector. -/
  direct_unique : ∀ source target, {index | index ∈ wiring.between source target ∧
    wiring.links[index]?.bind Link.connector = none}.Subsingleton
  /-- The links that leave a port are filed under it in increasing order. -/
  linksFrom_increasing : ∀ port, (wiring.linksFrom port).Pairwise (· < ·)
  mem_linksFrom : ∀ port index, index ∈ wiring.linksFrom port ↔
    ∃ link, wiring.links[index]? = some link ∧ link.source = port
  /-- The links have channels and nothing else has; they are empty. -/
  channels : ∀ name, wiring.channels.get? name =
    if name ∈ wiring.links.map Link.channel then some {} else none
  /-- Connectors of one name share a channel. -/
  shared : ∀ name, ∃ channel, ∀ link ∈ wiring.links, link.connector = some name →
    link.channel = channel
  schedule_all : model.flows = [] → wiring.schedule = List.range wiring.links.length
  /-- There is an entry for every declared flow: the first link between its ports. -/
  schedule_declared : model.flows ≠ [] →
    List.Forall₂ (fun flow index => IsLeast (wiring.between flow.source flow.target) index)
      model.flows wiring.schedule

/-- The wiring of a model is right in all its views. -/
theorem wires_ofModel (model : Model) : (ofModel model).Wires model where
  links := links_ofModel model
  direct_first index link := isLeast_of_direct
  direct_unique source target := by
    rintro i ⟨⟨link, hlink, rfl, rfl⟩, hdirect⟩ j ⟨⟨other, hother, hsource, htarget⟩, hdirect'⟩
    rw [hlink, Option.bind_some] at hdirect
    rw [hother, Option.bind_some] at hdirect'
    have hfirst := isLeast_of_direct hother hdirect'
    rw [hsource, htarget] at hfirst
    exact (isLeast_of_direct hlink hdirect).unique hfirst
  linksFrom_increasing port := by
    rw [linksFrom_ofModel]
    exact List.pairwise_lt_range.filter _
  mem_linksFrom port index := mem_linksFrom_ofModel
  channels := channels_ofModel model
  shared name := ⟨name, fun link hlink hname => channel_of_connector hlink hname⟩
  schedule_all hflows := by simp [ofModel, hflows]
  schedule_declared hflows := (serves_ofModel hflows).schedule_least

-- Three flows are declared beside a bus: one that the bus carries, and twice the same other one.
example :
    let wiring := ofModel {
      name := "plant"
      connectors := .ofList [("bus", {
        name := "bus"
        flows := [⟨⟨"pump", "out"⟩, ⟨"tank", "in"⟩, .real⟩, ⟨⟨"pump", "out"⟩, ⟨"gauge", "in"⟩, .real⟩] })]
      flows := [⟨⟨"pump", "out"⟩, ⟨"gauge", "in"⟩, .real⟩, ⟨⟨"gauge", "out"⟩, ⟨"panel", "in"⟩, .real⟩,
        ⟨⟨"gauge", "out"⟩, ⟨"panel", "in"⟩, .any⟩] }
    wiring.links.map Link.channel = ["bus", "bus", "gauge.out->panel.in"] ∧
      wiring.linksFrom ⟨"pump", "out"⟩ = [0, 1] ∧ wiring.schedule = [1, 2, 2] := by
  decide +kernel

end Wiring
end Archflow
