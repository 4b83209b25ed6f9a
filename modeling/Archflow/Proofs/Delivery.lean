import Archflow.Proofs.Cascade
import Archflow.Proofs.Wiring

/-!
Deliveries of a session. Between two transmissions all channels are idle, so a value that is
transmitted is at once the only one on its channel and is delivered before the transmission ends.
Nothing is lost or delivered twice, and a call leaves nothing behind, whether it halts or not.
-/
namespace Archflow

/-- No channel holds a value or is being served. -/
def Wiring.Idle (wiring : Wiring) : Prop := ∀ name, wiring.channel name = {}

namespace Wiring

@[simp] theorem channel_putChannel (wiring : Wiring) (name other : String) (channel : Channel) :
    (wiring.putChannel name channel).channel other =
      if other = name then channel else wiring.channel other := by
  unfold Wiring.channel putChannel
  rw [Table.get?_insert]
  split <;> rfl

theorem idle_abortAll (wiring : Wiring) : wiring.abortAll.Idle := by
  intro name
  simp only [Wiring.channel, abortAll, Table.get?_map]
  cases wiring.channels.get? name <;> rfl

theorem idle_ofModel (model : Model) : (ofModel model).Idle := channel_ofModel model

end Wiring

namespace Trace

@[simp] theorem failures_record (trace : Trace) (element : String) (kind : StepKind)
    (input output : Option Value) :
    (trace.record element kind input output).failures = trace.failures := by
  simp [failures, record, Entry.isFailure]

theorem failures_recordFault (trace : Trace) (element : String) (kind : StepKind)
    (input : Option Value) (fault : Fault) :
    ∃ entry, (trace.recordFault element kind input fault).failures = trace.failures ++ [entry] := by
  refine ⟨⟨trace.entries.size, element, kind, input, none, some fault⟩, ?_⟩
  simp [failures, recordFault, Entry.isFailure]

end Trace

namespace Simulation

def Event.land? : Event → Option (PortRef × Value)
  | .land port value => some (port, value)
  | _ => none

theorem Event.eq_land {event : Event} {port : PortRef} {value : Value}
    (h : event.land? = some (port, value)) : event = .land port value := by
  cases event with
  | land =>
    cases h
    rfl
  | _ => cases h

def Event.deliver? : Event → Option (String × Delivery)
  | .deliver channel delivery => some (channel, delivery)
  | _ => none

def Event.transmit? (links : List Link) : Event → Option (String × Delivery)
  | .transmit index value => links[index]?.map fun link => (link.channel, ⟨index, value⟩)
  | _ => none

theorem Event.Plain.not_transport {live : Prop} {sim : Simulation} {event : Event}
    (h : event.Plain live sim) : event.isTransport = false := by
  have hkind := h.1
  revert hkind
  cases event <;> simp [Event.isPlain, Event.isTransport]

theorem Event.deliver?_eq_none {event : Event} (h : event.isTransport = false) :
    event.deliver? = none := by
  cases event with
  | deliver => cases h
  | _ => rfl

theorem Event.transmit?_eq_none {links : List Link} {event : Event} (h : event.isTransport = false) :
    event.transmit? links = none := by
  cases event with
  | transmit => cases h
  | _ => rfl

def landings (history : List Moment) : List (PortRef × Value) := collect Event.land? history

def deliveries (history : List Moment) : List (String × Delivery) := collect Event.deliver? history

def transmissions (links : List Link) (history : List Moment) : List (String × Delivery) :=
  collect (Event.transmit? links) history

/-- A value that is transmitted finds its channel free and is delivered once before the transmission
ends. It lands on all ports that the target of its link reaches, or one failure is recorded. -/
def Delivered (sim : Simulation) (index : Nat) (value : Value) : Prop :=
  ∃ link, sim.wiring.links[index]? = some link ∧
    (((Event.transmit index value).effect sim).wiring.channel link.channel).begin?.isSome ∧
    deliveries (sim.transmitHistory index value) = [(link.channel, ⟨index, value⟩)] ∧
    ((∃ carried targets, sim.model.receiveTargets sim.limit link.target carried = .ok targets ∧
        landings (sim.transmitHistory index value) = targets.map (·, carried) ∧
        (sim.transmit index value).trace.failures = sim.trace.failures) ∨
      landings (sim.transmitHistory index value) = [] ∧
        ∃ entry, (sim.transmit index value).trace.failures = sim.trace.failures ++ [entry])

/-- What is transmitted in a history is delivered, all of it and nothing else, and in order. -/
structure Exact (links : List Link) (history : List Moment) : Prop where
  /-- No channel is found to be served already. -/
  free : ∀ moment ∈ history, ∀ name, moment.event ≠ .busy name
  once : ∀ moment ∈ history, ∀ index value, moment.event = .transmit index value →
    moment.sim.transmitHistory index value <:+: history ∧ Delivered moment.sim index value
  inOrder : deliveries history = transmissions links history

namespace Exact

variable {links : List Link} {history later : List Moment}

theorem append (first : Exact links history) (second : Exact links later) :
    Exact links (history ++ later) where
  free moment hmem := (List.mem_append.1 hmem).elim (first.free moment) (second.free moment)
  once moment hmem index value hevent := by
    rcases List.mem_append.1 hmem with hmem | hmem
    · obtain ⟨hblock, hdelivered⟩ := first.once moment hmem index value hevent
      exact ⟨hblock.trans (List.prefix_append ..).isInfix, hdelivered⟩
    · obtain ⟨hblock, hdelivered⟩ := second.once moment hmem index value hevent
      exact ⟨hblock.trans (List.suffix_append ..).isInfix, hdelivered⟩
  inOrder := by
    have hfirst := first.inOrder
    have hsecond := second.inOrder
    unfold deliveries transmissions at hfirst hsecond ⊢
    rw [collect_append, collect_append, hfirst, hsecond]

theorem of_not_transport (h : ∀ moment ∈ history, moment.event.isTransport = false) :
    Exact links history where
  free moment hmem name hevent := by
    have htransport := h moment hmem
    rw [hevent] at htransport
    cases htransport
  once moment hmem index value hevent := by
    have htransport := h moment hmem
    rw [hevent] at htransport
    cases htransport
  inOrder := by
    have hdeliver : deliveries history = [] :=
      collect_eq_nil fun moment hmem => Event.deliver?_eq_none (h moment hmem)
    have htransmit : transmissions links history = [] :=
      collect_eq_nil fun moment hmem => Event.transmit?_eq_none (h moment hmem)
    rw [hdeliver, htransmit]

theorem single {moment : Moment} (h : moment.event.isTransport = false) : Exact links [moment] :=
  .of_not_transport fun _ hmem => List.mem_singleton.1 hmem ▸ h

end Exact

/-! What one delivery does to the channels, the ports and the trace. -/

@[simp] theorem wiring_land (sim : Simulation) (value : Value) (port : PortRef) :
    (sim.land value port).wiring = sim.wiring := by
  unfold land
  dsimp only
  split <;> rfl

@[simp] theorem failures_land (sim : Simulation) (value : Value) (port : PortRef) :
    (sim.land value port).trace.failures = sim.trace.failures := by
  unfold land
  dsimp only
  split <;> exact Trace.failures_record ..

theorem wiring_lands (value : Value) (targets : List PortRef) (sim : Simulation) :
    (targets.foldl (fun sim target => sim.land value target) sim).wiring = sim.wiring := by
  induction targets generalizing sim with
  | nil => rfl
  | cons port rest ih => exact (ih _).trans (wiring_land ..)

theorem failures_lands (value : Value) (targets : List PortRef) (sim : Simulation) :
    (targets.foldl (fun sim target => sim.land value target) sim).trace.failures =
      sim.trace.failures := by
  induction targets generalizing sim with
  | nil => rfl
  | cons port rest ih => exact (ih _).trans (failures_land ..)

theorem landings_lands (value : Value) (targets : List PortRef) (sim : Simulation) :
    landings (landHistory value targets sim) = targets.map (·, value) := by
  induction targets generalizing sim with
  | nil => rfl
  | cons port rest ih =>
    have hrest := ih (sim.land value port)
    unfold landings at hrest ⊢
    rw [landHistory, collect_cons, hrest]
    rfl

theorem landings_transform (sim : Simulation) (transform : Option String) (raw : Value) :
    landings (sim.transformHistory transform raw) = [] := by
  unfold transformHistory
  split
  · rfl
  · split
    · rfl
    · split <;> rfl

theorem failures_fail (sim : Simulation) (element : String) (kind : StepKind) (input : Option Value)
    (fault : Fault) :
    ∃ entry, (sim.fail element kind input fault).trace.failures = sim.trace.failures ++ [entry] := by
  unfold fail
  split
  · exact Trace.failures_recordFault ..
  · exact Trace.failures_recordFault ..

theorem fail_wiring (sim : Simulation) (element : String) (kind : StepKind) (input : Option Value)
    (fault : Fault) :
    (sim.fail element kind input fault).halted = sim.halted ∧
        (sim.fail element kind input fault).wiring = sim.wiring ∨
      (sim.fail element kind input fault).halted = true ∧
        (sim.fail element kind input fault).wiring.Idle := by
  unfold fail
  split
  · exact .inr ⟨rfl, Wiring.idle_abortAll _⟩
  · exact .inl ⟨rfl, rfl⟩

theorem Ran.failures {executable : Option String} {sim ran : Simulation} (h : Ran executable sim ran) :
    ran.trace.failures = sim.trace.failures := by
  rcases h with rfl | ⟨name, input, output, _, rfl⟩
  · rfl
  · exact Trace.failures_record ..

/-- A served value lands on the ports that the target of its link reaches, or fails once. -/
theorem serve_outcome (sim : Simulation) (name : String) (delivery : Delivery) :
    (∃ link carried targets, sim.wiring.links[delivery.link]? = some link ∧
        sim.model.receiveTargets sim.limit link.target carried = .ok targets ∧
        landings (sim.serveHistory name delivery) = targets.map (·, carried) ∧
        (sim.serve name delivery).trace.failures = sim.trace.failures) ∨
      landings (sim.serveHistory name delivery) = [] ∧
        ∃ entry, (sim.serve name delivery).trace.failures = sim.trace.failures ++ [entry] := by
  unfold serve serveHistory landings
  dsimp only
  generalize htaken : (Event.deliver name delivery).effect sim = taken
  have hmodel : taken.model = sim.model := by rw [← htaken]; rfl
  have hlimit : taken.limit = sim.limit := by rw [← htaken]; rfl
  have hlinks : taken.wiring.links = sim.wiring.links := by rw [← htaken]; rfl
  have htrace : taken.trace = sim.trace := by rw [← htaken]; rfl
  have hquiet := taken.landings_transform (taken.transformOf delivery) delivery.value
  unfold landings at hquiet
  rcases taken.deliver_cases delivery with
    ⟨fault, ran, hdeliver, hran, hhistory, _⟩ |
    ⟨link, carried, targets, ran, hlink, hran, htargets, hdeliver, hhistory, _⟩
  · refine .inr ⟨?_, ?_⟩
    · rw [hdeliver, hhistory]
      simp [hquiet, failHistory, Event.land?]
    · rw [hdeliver, ← htrace, ← hran.failures]
      exact ran.failures_fail ..
  · refine .inl ⟨link, carried, targets, hlinks ▸ hlink, ?_, ?_, ?_⟩
    · rw [← hmodel, ← hlimit, ← hran.model, ← hran.limit]
      exact htargets
    · have hlands := landings_lands carried targets ran
      unfold landings at hlands
      rw [hdeliver, hhistory]
      simp [hquiet, hlands, failHistory, Event.land?]
    · rw [hdeliver, ← htrace, ← hran.failures]
      exact failures_lands ..

/-- Serving a value takes it from its channel; if that halts the run, all channels are idle. -/
theorem serve_wiring (sim : Simulation) (name : String) (delivery : Delivery) :
    (sim.serve name delivery).halted = sim.halted ∧
        (sim.serve name delivery).wiring = ((Event.deliver name delivery).effect sim).wiring ∨
      (sim.serve name delivery).halted = true ∧ (sim.serve name delivery).wiring.Idle := by
  unfold serve
  have hlive : ((Event.deliver name delivery).effect sim).halted = sim.halted := rfl
  rw [← hlive]
  generalize (Event.deliver name delivery).effect sim = taken
  rcases taken.deliver_cases delivery with
    ⟨fault, ran, hdeliver, hran, _⟩ | ⟨link, carried, targets, ran, _, hran, _, hdeliver, _⟩
  · rw [hdeliver, ← hran.halted, ← hran.wiring]
    exact ran.fail_wiring ..
  · rw [hdeliver]
    exact .inl ⟨(halted_lands ..).trans hran.halted, (wiring_lands ..).trans hran.wiring⟩

/-! Transmissions over idle channels. -/

section
variable {sim : Simulation} {index : Nat} {link : Link}

/-- The simulation once a value waits on the channel of a link, which is claimed for it. -/
def claimed (sim : Simulation) (link : Link) (delivery : Delivery) : Simulation :=
  (Event.claim link.channel).effect ((Event.transmit delivery.link delivery.value).effect sim)

def served (sim : Simulation) (link : Link) (delivery : Delivery) : Simulation :=
  (sim.claimed link delivery).serve link.channel delivery

theorem effect_claim (sim : Simulation) (name : String) :
    (Event.claim name).effect sim =
      sim.putChannel name { sim.wiring.channel name with delivering := true } := rfl

theorem wiring_transmit (hlink : sim.wiring.links[index]? = some link) (value : Value) :
    ((Event.transmit index value).effect sim).wiring =
      sim.wiring.putChannel link.channel
        ((sim.wiring.channel link.channel).enqueue ⟨index, value⟩) := by
  simp only [Event.effect, hlink]
  rfl

theorem channel_transmit (hlink : sim.wiring.links[index]? = some link) (hidle : sim.wiring.Idle)
    (value : Value) :
    ((Event.transmit index value).effect sim).wiring.channel link.channel =
      { pending := [⟨index, value⟩], delivering := false } := by
  rw [wiring_transmit hlink, Wiring.channel_putChannel, if_pos rfl, hidle]
  rfl

theorem claimed_of_link (hlink : sim.wiring.links[index]? = some link) (value : Value) :
    (sim.claimed link ⟨index, value⟩).model = sim.model ∧
      (sim.claimed link ⟨index, value⟩).config = sim.config ∧
      (sim.claimed link ⟨index, value⟩).trace = sim.trace ∧
      (sim.claimed link ⟨index, value⟩).halted = sim.halted ∧
      (sim.claimed link ⟨index, value⟩).wiring.links = sim.wiring.links := by
  simp only [claimed, Event.effect, hlink]
  exact ⟨rfl, rfl, rfl, rfl, rfl⟩

theorem channel_claimed (hlink : sim.wiring.links[index]? = some link) (hidle : sim.wiring.Idle)
    (value : Value) (name : String) :
    (sim.claimed link ⟨index, value⟩).wiring.channel name =
      if name = link.channel then { pending := [⟨index, value⟩], delivering := true } else {} := by
  have hchannel := channel_transmit hlink hidle value
  rw [claimed, effect_claim, hchannel, putChannel, Wiring.channel_putChannel]
  split
  · rfl
  · next hother => rw [wiring_transmit hlink, Wiring.channel_putChannel, if_neg hother, hidle]

/-- A transmission over an idle channel serves its value and, unless that halts the run, releases
the channel. -/
theorem transmit_idle (hlink : sim.wiring.links[index]? = some link) (hidle : sim.wiring.Idle)
    (value : Value) :
    sim.transmitHistory index value =
        ⟨sim, .transmit index value⟩ ::
          ⟨(Event.transmit index value).effect sim, .claim link.channel⟩ ::
          ((sim.claimed link ⟨index, value⟩).serveHistory link.channel ⟨index, value⟩ ++
            if (sim.served link ⟨index, value⟩).halted then []
            else [⟨sim.served link ⟨index, value⟩, .release link.channel⟩]) ∧
      sim.transmit index value =
        if (sim.served link ⟨index, value⟩).halted then sim.served link ⟨index, value⟩
        else (Event.release link.channel).effect (sim.served link ⟨index, value⟩) := by
  have hsent := channel_transmit hlink hidle value
  have hbegin : (((Event.transmit index value).effect sim).wiring.channel link.channel).begin? =
      some { pending := [⟨index, value⟩], delivering := true } := by
    rw [hsent]
    rfl
  have hnext : ((sim.claimed link ⟨index, value⟩).wiring.channel link.channel).next? =
      some (⟨index, value⟩, { pending := [], delivering := true }) := by
    rw [channel_claimed hlink hidle, if_pos rfl]
    rfl
  have hclaimed : ((Event.transmit index value).effect sim).putChannel link.channel
      { pending := [⟨index, value⟩], delivering := true } = sim.claimed link ⟨index, value⟩ := by
    rw [claimed, effect_claim, hsent]
  unfold served
  constructor
  · simp only [transmitHistory, hlink, pumpHistory, hbegin, hclaimed, Channel.size,
      List.length_singleton, pumpLoopHistory, hnext]
  · rw [transmit_eq hlink]
    simp only [pump, hbegin, hclaimed, Channel.size, List.length_singleton, pumpLoop_succ, hnext]
    rfl

theorem idle_released (hlink : sim.wiring.links[index]? = some link) (hidle : sim.wiring.Idle)
    (value : Value) {last : Simulation}
    (hlast : last.wiring = ((Event.deliver link.channel ⟨index, value⟩).effect
      (sim.claimed link ⟨index, value⟩)).wiring) :
    ((Event.release link.channel).effect last).wiring.Idle := by
  have hchannel (name : String) : last.wiring.channel name =
      if name = link.channel then { pending := [], delivering := true } else {} := by
    rw [hlast, Event.effect, putChannel, Wiring.channel_putChannel, channel_claimed hlink hidle,
      channel_claimed hlink hidle, if_pos rfl]
    split <;> rfl
  intro name
  rw [Event.effect, putChannel, Wiring.channel_putChannel, hchannel, hchannel, if_pos rfl]
  split <;> rfl

theorem idle_transmit (hidle : sim.wiring.Idle) (hlive : sim.halted = false) (index : Nat)
    (value : Value) : (sim.transmit index value).wiring.Idle := by
  cases hlink : sim.wiring.links[index]? with
  | none =>
    rw [show sim.transmit index value = sim by simp only [transmit, hlink]]
    exact hidle
  | some link =>
    have hclaimed : (sim.claimed link ⟨index, value⟩).halted = false :=
      (claimed_of_link hlink value).2.2.2.1.trans hlive
    rw [(transmit_idle hlink hidle value).2, served]
    rcases (sim.claimed link ⟨index, value⟩).serve_wiring link.channel ⟨index, value⟩ with
      ⟨hhalted, hwiring⟩ | ⟨hhalted, hwiring⟩
    · rw [if_neg (by simp [hhalted, hclaimed])]
      exact idle_released hlink hidle value hwiring
    · rw [if_pos hhalted]
      exact hwiring

theorem serve_quiet (sim : Simulation) (name : String) (delivery : Delivery) :
    ∃ tail, sim.serveHistory name delivery = ⟨sim, .deliver name delivery⟩ :: tail ∧
      ∀ moment ∈ tail, moment.event.isTransport = false := by
  refine ⟨_, rfl, fun moment hmem => ?_⟩
  have hplain := ((deliver_leads ..).append (failIf_leads False ..)).admits_of_mem moment hmem
  exact hplain.not_transport

/-- In a transmission over an idle channel, only its own value is put on a channel and delivered. -/
theorem transmit_moments (hlink : sim.wiring.links[index]? = some link) (hidle : sim.wiring.Idle)
    (value : Value) :
    ∃ before after, sim.transmitHistory index value =
      ⟨sim, .transmit index value⟩ ::
        ⟨(Event.transmit index value).effect sim, .claim link.channel⟩ ::
        ⟨before, .deliver link.channel ⟨index, value⟩⟩ :: after ∧
      ∀ moment ∈ after, moment.event.isTransport = false ∨ moment.event = .release link.channel := by
  obtain ⟨tail, htail, hquiet⟩ :=
    (sim.claimed link ⟨index, value⟩).serve_quiet link.channel ⟨index, value⟩
  rw [(transmit_idle hlink hidle value).1, htail]
  refine ⟨sim.claimed link ⟨index, value⟩, _, rfl, fun moment hmem => ?_⟩
  rcases List.mem_append.1 hmem with hmem | hmem
  · exact .inl (hquiet moment hmem)
  · split at hmem
    · cases hmem
    · exact .inr (by rw [List.mem_singleton.1 hmem])

theorem deliveries_transmit (hlink : sim.wiring.links[index]? = some link) (hidle : sim.wiring.Idle)
    (value : Value) :
    deliveries (sim.transmitHistory index value) = [(link.channel, ⟨index, value⟩)] := by
  obtain ⟨before, after, hmoments, hafter⟩ := transmit_moments hlink hidle value
  have hnone : deliveries after = [] := collect_eq_nil fun moment hmem => by
    rcases hafter moment hmem with hquiet | hrelease
    · exact Event.deliver?_eq_none hquiet
    · rw [hrelease]
      rfl
  unfold deliveries at hnone ⊢
  rw [hmoments]
  simp [hnone, Event.deliver?]

theorem transmissions_transmit (hlink : sim.wiring.links[index]? = some link)
    (hidle : sim.wiring.Idle) (value : Value) :
    transmissions sim.wiring.links (sim.transmitHistory index value) =
      [(link.channel, ⟨index, value⟩)] := by
  obtain ⟨before, after, hmoments, hafter⟩ := transmit_moments hlink hidle value
  have hnone : transmissions sim.wiring.links after = [] := collect_eq_nil fun moment hmem => by
    rcases hafter moment hmem with hquiet | hrelease
    · exact Event.transmit?_eq_none hquiet
    · rw [hrelease]
      rfl
  unfold transmissions at hnone ⊢
  rw [hmoments]
  simp [hnone, Event.transmit?, hlink]

theorem delivered_of_idle (hlink : sim.wiring.links[index]? = some link) (hidle : sim.wiring.Idle)
    (value : Value) : Delivered sim index value := by
  obtain ⟨hmodel, hconfig, htrace, _, hlinks⟩ := claimed_of_link hlink value
  obtain ⟨hhistory, hlast⟩ := transmit_idle hlink hidle value
  have hlandings : landings (sim.transmitHistory index value) =
      landings ((sim.claimed link ⟨index, value⟩).serveHistory link.channel ⟨index, value⟩) := by
    rw [hhistory]
    unfold landings
    split <;> simp [Event.land?]
  have hfailures : (sim.transmit index value).trace.failures =
      (sim.served link ⟨index, value⟩).trace.failures := by
    rw [hlast]
    split <;> rfl
  have hfree : (((Event.transmit index value).effect sim).wiring.channel link.channel).begin?.isSome := by
    rw [channel_transmit hlink hidle]
    rfl
  refine ⟨link, hlink, hfree, deliveries_transmit hlink hidle value, ?_⟩
  rw [hlandings, hfailures, ← htrace]
  rcases (sim.claimed link ⟨index, value⟩).serve_outcome link.channel ⟨index, value⟩ with
    ⟨found, carried, targets, hfound, htargets, hlanded, hsame⟩ | hfailed
  · have hsame_link : found = link := by
      rw [hlinks] at hfound
      exact Option.some.inj (hfound.symm.trans hlink)
    have hlimit : (sim.claimed link ⟨index, value⟩).limit = sim.limit :=
      congrArg Config.maxCascadeDepth hconfig
    rw [hmodel, hlimit, hsame_link] at htargets
    exact .inl ⟨carried, targets, htargets, hlanded, hsame⟩
  · exact .inr hfailed

/-- A transmission over an idle channel starts no other one and never finds a channel being
served. -/
theorem transmit_alone (hlink : sim.wiring.links[index]? = some link) (hidle : sim.wiring.Idle)
    (value : Value) :
    ∀ moment ∈ sim.transmitHistory index value, (∀ name, moment.event ≠ .busy name) ∧
      ∀ other sent, moment.event = .transmit other sent → moment = ⟨sim, .transmit index value⟩ := by
  obtain ⟨before, after, hmoments, hafter⟩ := transmit_moments hlink hidle value
  intro moment hmem
  rw [hmoments] at hmem
  simp only [List.mem_cons] at hmem
  rcases hmem with rfl | rfl | rfl | hmem
  · refine ⟨fun name hevent => ?_, fun _ _ _ => rfl⟩
    cases hevent
  · refine ⟨fun name hevent => ?_, fun _ _ hevent => ?_⟩ <;> cases hevent
  · refine ⟨fun name hevent => ?_, fun _ _ hevent => ?_⟩ <;> cases hevent
  · rcases hafter moment hmem with hquiet | hrelease
    · refine ⟨fun name hevent => ?_, fun _ _ hevent => ?_⟩ <;>
        simp [hevent, Event.isTransport] at hquiet
    · refine ⟨fun name hevent => ?_, fun _ _ hevent => ?_⟩ <;> simp [hrelease] at hevent

theorem exact_transmit (hidle : sim.wiring.Idle) (index : Nat) (value : Value) :
    Exact sim.wiring.links (sim.transmitHistory index value) := by
  cases hlink : sim.wiring.links[index]? with
  | none =>
    rw [show sim.transmitHistory index value = [] by simp only [transmitHistory, hlink]]
    exact .of_not_transport (by simp)
  | some link =>
    have halone := transmit_alone hlink hidle value
    refine ⟨fun moment hmem => (halone moment hmem).1, fun moment hmem other sent hevent => ?_, ?_⟩
    · have hmoment := (halone moment hmem).2 other sent hevent
      subst hmoment
      cases hevent
      exact ⟨List.infix_refl _, delivered_of_idle hlink hidle value⟩
    · rw [deliveries_transmit hlink hidle, transmissions_transmit hlink hidle]

end

/-! From one transmission to whole calls. -/

theorem idle_effect {sim : Simulation} {event : Event} (h : event.isTransport = false)
    (hidle : sim.wiring.Idle) : (event.effect sim).wiring.Idle := by
  cases event with
  | transmit | claim | busy | deliver | release => cases h
  | land port value =>
    change (sim.land value port).wiring.Idle
    rw [wiring_land]
    exact hidle
  | fail element kind input fault =>
    rcases sim.fail_wiring element kind input fault with ⟨_, hwiring⟩ | ⟨_, hwiring⟩
    · change (sim.fail element kind input fault).wiring.Idle
      rw [hwiring]
      exact hidle
    · exact hwiring
  | halt fault => exact Wiring.idle_abortAll _
  | _ => exact hidle

theorem Event.Reacts.not_transport {sim : Simulation} {event : Event} (h : event.Reacts sim) :
    event.isTransport = false := by
  rcases h with h | ⟨wakeup, activity, rfl⟩
  · exact h.not_transport
  · rfl

section
variable {sim last : Simulation} {history : List Moment}

theorem Course.exact {admits : Simulation → Event → Prop} (course : Course admits sim history last)
    (hadmits : ∀ sim event, admits sim event → event.isTransport = false) (hidle : sim.wiring.Idle) :
    last.wiring.Idle ∧ Exact sim.wiring.links history := by
  induction course with
  | nil => exact ⟨hidle, .of_not_transport (by simp)⟩
  | @event sim last event history admitted tail ih =>
    have hquiet := hadmits sim event admitted
    obtain ⟨hlast, hexact⟩ := ih (idle_effect hquiet hidle)
    rw [(Alike.effect event sim).links] at hexact
    exact ⟨hlast, (@Exact.single sim.wiring.links ⟨sim, event⟩ hquiet).append hexact⟩
  | @transmit sim last index value history live tail ih =>
    obtain ⟨hlast, hexact⟩ := ih (idle_transmit hidle live index value)
    rw [(transmit_leads sim index value).alike.1.links] at hexact
    exact ⟨hlast, (exact_transmit hidle index value).append hexact⟩

theorem wake_exact {sim : Simulation} (hidle : sim.wiring.Idle) (wakeup : Wakeup) :
    (sim.wake wakeup).wiring.Idle ∧ Exact sim.wiring.links (sim.wakeHistory wakeup) := by
  obtain ⟨hlast, hexact⟩ := (tryActivities_course wakeup
    (sim.realization.activitiesOf wakeup.component) { sim with depth := wakeup.depth + 1 }).exact
    (fun _ _ => Event.Reacts.not_transport) hidle
  exact ⟨hlast, (Exact.single rfl).append (hexact.append (.single rfl))⟩

theorem Rounds.exact (rounds : Rounds sim history last) (hidle : sim.wiring.Idle) :
    last.wiring.Idle ∧ Exact sim.wiring.links history := by
  induction rounds with
  | nil => exact ⟨hidle, .of_not_transport (by simp)⟩
  | @cons sim last front rest history live next shallow tail ih =>
    obtain ⟨hwake, hserved⟩ := @wake_exact { sim with wakeups := rest } hidle front
    obtain ⟨hlast, hexact⟩ := ih hwake
    rw [(wake_leads { sim with wakeups := rest } front).alike.1.links] at hexact
    exact ⟨hlast, (Exact.single rfl).append (hserved.append hexact)⟩

theorem Ends.exact (ends : Ends sim history last) (hidle : sim.wiring.Idle) :
    last.wiring.Idle ∧ Exact sim.wiring.links history := by
  cases ends with
  | settled => exact ⟨hidle, .of_not_transport (by simp)⟩
  | stopped => exact ⟨hidle, .single rfl⟩
  | overrun => exact ⟨Wiring.idle_abortAll _, (Exact.single rfl).append (.single rfl)⟩

theorem drain_exact {model : Model} {config : Config} (h : Steady model config sim)
    (hidle : sim.wiring.Idle) :
    sim.drain.wiring.Idle ∧ Exact sim.wiring.links sim.drainHistory := by
  obtain ⟨rounds, mid, ending, hrounds, hends, hhistory⟩ := h.rounds
  obtain ⟨hmid, hrounds_exact⟩ := hrounds.exact hidle
  obtain ⟨hlast, hends_exact⟩ := hends.exact hmid
  rw [hrounds.alike.links] at hends_exact
  rw [hhistory]
  exact ⟨hlast, (Exact.single rfl).append (hrounds_exact.append hends_exact)⟩

/-- However a simulation with idle channels is driven, all values are delivered, and the channels
are idle in the end. -/
theorem Driven.exact {model : Model} {config : Config} (driven : Driven sim history last)
    (hsteady : Steady model config sim) (hidle : sim.wiring.Idle) :
    last.wiring.Idle ∧ Exact sim.wiring.links history := by
  induction driven with
  | nil => exact ⟨hidle, .of_not_transport (by simp)⟩
  | @note sim last event later admitted silent tail ih =>
    have hquiet := admitted.not_transport
    obtain ⟨hlast, hexact⟩ := ih (hsteady.effect admitted.works) (idle_effect hquiet hidle)
    rw [(Alike.effect event sim).links] at hexact
    exact ⟨hlast, (@Exact.single sim.wiring.links ⟨sim, event⟩ hquiet).append hexact⟩
  | @react sim mid last history later course tail ih =>
    have hmid := Steady.of_course course hsteady
    have hlinks := course.works.alike.1.links
    obtain ⟨hsent, hcourse⟩ := course.exact (fun _ _ => Event.Plain.not_transport) hidle
    obtain ⟨hdrained, hdrain⟩ := drain_exact hmid hsent
    obtain ⟨hlast, hexact⟩ := ih hmid.drain hdrained
    rw [(drain_leads mid).alike.1.links, hlinks] at hexact
    rw [hlinks] at hdrain
    exact ⟨hlast, hcourse.append (hdrain.append hexact)⟩

/-- However a simulation is driven in which no wake-up waits, none waits in the end. -/
theorem Driven.wakeups_eq_nil {model : Model} {config : Config} (driven : Driven sim history last)
    (hsteady : Steady model config sim) (h : sim.wakeups = []) : last.wakeups = [] := by
  induction driven with
  | nil => exact h
  | @note sim last event later admitted silent tail ih =>
    refine ih (hsteady.effect admitted.works) ?_
    rcases (wakeups_effect admitted.works).2 with heq | ⟨heq, _⟩ | ⟨port, value, hland, _⟩
    · exact heq.trans h
    · exact heq
    · exact absurd hland (silent port value)
  | @react sim mid last history later course tail ih =>
    have hmid := Steady.of_course course hsteady
    have hcleared := (course.mono fun _ _ => Event.Plain.reacts).cleared fun _ => h
    obtain ⟨rounds, mid', ending, hrounds, hends, _⟩ := hmid.rounds
    refine ih hmid.drain ?_
    rcases hrounds.emptied hends with hempty | ⟨hhalted, htail⟩
    · exact hempty
    · rw [htail, hcleared hhalted]
      rfl

/-- Nothing is under way or waits, and the simulation lies at depth 0. -/
structure Quiet (sim : Simulation) : Prop where
  idle : sim.wiring.Idle
  wakeups_eq : sim.wakeups = []
  depth_eq : sim.depth = 0

/-- However a quiet simulation is driven, all values are delivered, and it is quiet in the end. -/
theorem Quiet.driven {model : Model} {config : Config} (h : Quiet sim)
    (driven : Driven sim history last) (hsteady : Steady model config sim) :
    Quiet last ∧ Exact sim.wiring.links history := by
  obtain ⟨hidle, hexact⟩ := driven.exact hsteady h.idle
  have hwakeups := driven.wakeups_eq_nil hsteady h.wakeups_eq
  exact ⟨⟨hidle, hwakeups, (driven.steady hsteady).1.depth_eq⟩, hexact⟩

end

end Simulation

namespace Session

open Simulation (Moment Leads Event Steady Quiet Exact)

inductive Call where
  | setInputs (inputs : Inputs)
  | run
  | sendToPort (qualified : String) (value : Value)

def perform (session : Session) : Call → Session
  | .setInputs inputs => { session with inputs }
  | .run => session.run
  | .sendToPort qualified value => (session.sendToPort qualified value).2

def performAll (session : Session) (calls : List Call) : Session := calls.foldl perform session

def history (session : Session) : Call → List Moment
  | .setInputs _ => []
  | .run => Simulation.simulateHistory session.model session.config session.inputs
  | .sendToPort qualified value => session.simulation.sendToPortHistory qualified value

/-- The simulation that a call starts from. A run starts over. -/
def start (session : Session) : Call → Simulation
  | .run => .new session.model session.config
  | _ => session.simulation

structure Resting (model : Model) (config : Config) (session : Session) : Prop where
  model_eq : session.model = model
  config_eq : session.config = config
  steady : Steady model config session.simulation
  quiet : Quiet session.simulation

variable {model : Model} {config : Config} {session : Session}

theorem quiet_new (model : Model) (config : Config) : Quiet (.new model config) :=
  ⟨Wiring.idle_ofModel model, rfl, rfl⟩

theorem Resting.of_load (h : load model config = .ok session) : Resting model config session := by
  unfold load at h
  cases hvalid : model.validate with
  | error fault =>
    rw [hvalid] at h
    cases h
  | ok =>
    rw [hvalid] at h
    cases h
    exact ⟨rfl, rfl, .new model config, quiet_new model config⟩

/-- A call delivers exactly what it transmits, and leaves the session at rest. -/
theorem Resting.call (h : Resting model config session) (call : Call) :
    Resting model config (session.perform call) ∧
      Exact (Wiring.ofModel model).links (session.history call) ∧
      Leads Event.Checked (session.start call) (session.history call)
        (session.perform call).simulation := by
  obtain ⟨hmodel, hconfig, hsteady, hquiet⟩ := h
  cases call with
  | setInputs inputs =>
    exact ⟨⟨hmodel, hconfig, hsteady, hquiet⟩, .of_not_transport (by simp [history]), .nil _⟩
  | run =>
    subst hmodel hconfig
    have hdriven := Simulation.simulate_driven session.model session.config session.inputs
    have hnew := Steady.new session.model session.config
    obtain ⟨hlast, hexact⟩ := (quiet_new ..).driven hdriven hnew
    exact ⟨⟨rfl, rfl, (hdriven.steady hnew).1, hlast⟩, hexact, hdriven.leads⟩
  | sendToPort qualified value =>
    have hdriven := session.simulation.sendToPort_driven qualified value
    obtain ⟨hlast, hexact⟩ := hquiet.driven hdriven hsteady
    rw [hsteady.alike.links] at hexact
    exact ⟨⟨hmodel, hconfig, (hdriven.steady hsteady).1, hlast⟩, hexact, hdriven.leads⟩

theorem Resting.performAll (h : Resting model config session) (calls : List Call) :
    Resting model config (session.performAll calls) :=
  List.foldlRecOn (motive := Resting model config) calls _ h fun _ h call _ => (h.call call).1

/-- In a session of any model that can be loaded, after any calls, a further call leads from its
start to the state it leaves. On the way every value that is transmitted is delivered once, in
order and before its transmission ends; and in the end nothing is under way or waits. -/
theorem calls_deliver_exactly (h : load model config = .ok session) (calls : List Call) (call : Call) :
    let before := session.performAll calls
    let after := before.perform call
    Leads Event.Checked (before.start call) (before.history call) after.simulation ∧
      Exact (Wiring.ofModel model).links (before.history call) ∧
      Quiet after.simulation := by
  obtain ⟨hresting, hexact, hleads⟩ := ((Resting.of_load h).performAll calls).call call
  exact ⟨hleads, hexact, hresting.quiet⟩

theorem calls_deliver_exactly_relay :
    let loaded : Session := { model := relay, inputs := {}, config := {}, simulation := .new relay {} }
    let before := loaded.performAll [.run]
    let call := Call.sendToPort "source.out" (.bool false)
    load relay {} = .ok loaded ∧
      Simulation.deliveries (before.history call) = [("source.out->sink.in", ⟨0, .bool false⟩)] ∧
      Quiet (before.perform call).simulation := by
  have h := calls_deliver_exactly (show load relay {} = .ok _ from rfl) [.run]
    (.sendToPort "source.out" (.bool false))
  refine ⟨rfl, h.2.1.inOrder.trans ?_, h.2.2⟩
  decide +kernel

end Session
end Archflow
