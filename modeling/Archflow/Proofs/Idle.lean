import Archflow.Proofs.Delivery
import Archflow.Proofs.Standstill

/-!
Channels between the operations of a host. A channel that is claimed for a delivery is released when
the delivery is done or when the run halts. A transmission that a host makes in a run that has halted
before does neither, and strands its channel: it stays claimed, and what is sent over it later waits
there. In the absence of such transmissions all channels are idle between operations, and what is
written to a port is delivered over all links that leave it.
-/
namespace Archflow

namespace Wiring

/-- The links that are filed under a port are those that leave it. -/
def Indexed (wiring : Wiring) : Prop :=
  ∀ port index, index ∈ wiring.linksFrom port ↔
    ∃ link, wiring.links[index]? = some link ∧ link.source = port

theorem indexed_ofModel (model : Model) : (ofModel model).Indexed :=
  fun _ _ => mem_linksFrom_ofModel

end Wiring

namespace Simulation

theorem Alike.linksFrom {sim other : Simulation} (h : Alike sim other) (port : PortRef) :
    other.wiring.linksFrom port = sim.wiring.linksFrom port := by
  unfold Wiring.linksFrom
  rw [h.outgoing]

theorem Alike.indexed {model : Model} {config : Config} {sim : Simulation}
    (h : Alike (.new model config) sim) : sim.wiring.Indexed := by
  intro port index
  rw [h.linksFrom, h.links]
  exact Wiring.indexed_ofModel model port index

/-! Deliveries write to no port that sends. -/

def Event.write? : Event → Option (PortRef × Value)
  | .write port value => some (port, value)
  | _ => none

def Writeless (history : List Moment) : Prop := ∀ moment ∈ history, moment.event.write? = none

theorem Writeless.append {history later : List Moment} (first : Writeless history)
    (second : Writeless later) : Writeless (history ++ later) :=
  List.forall_mem_append.2 ⟨first, second⟩

theorem Writeless.cons {moment : Moment} {history : List Moment}
    (first : moment.event.write? = none) (rest : Writeless history) :
    Writeless (moment :: history) := List.forall_mem_cons.2 ⟨first, rest⟩

theorem Writeless.nil : Writeless [] := fun _ hmem => by cases hmem

theorem writeless_lands (value : Value) (targets : List PortRef) (sim : Simulation) :
    Writeless (landHistory value targets sim) := by
  induction targets generalizing sim with
  | nil => exact .nil
  | cons port rest ih => exact .cons rfl (ih _)

theorem writeless_receive (sim : Simulation) (port : PortRef) (value : Value) :
    Writeless (sim.receiveHistory port value) := by
  unfold receiveHistory
  split
  · exact .nil
  · exact writeless_lands _ _ _

theorem writeless_transform (sim : Simulation) (transform : Option String) (raw : Value) :
    Writeless (sim.transformHistory transform raw) := by
  unfold transformHistory
  split
  · exact .nil
  · split
    · exact .nil
    · split
      · exact .cons rfl .nil
      · exact .nil

theorem writeless_fail (sim : Simulation) (element : String) (kind : StepKind) (input : Option Value)
    (outcome : Except Fault Unit) : Writeless (sim.failHistory element kind input outcome) := by
  cases outcome with
  | ok => exact .nil
  | error fault => exact .cons rfl .nil

theorem writeless_serve (sim : Simulation) (name : String) (delivery : Delivery) :
    Writeless (sim.serveHistory name delivery) := by
  refine .cons rfl (.append ?_ (writeless_fail _ _ _ _ _))
  rcases deliver_cases ((Event.deliver name delivery).effect sim) delivery with
    ⟨fault, ran, _, _, hhistory, _⟩ | ⟨link, carried, targets, ran, _, _, _, _, hhistory, _⟩
  · rw [hhistory]
    exact writeless_transform _ _ _
  · rw [hhistory]
    exact (writeless_transform _ _ _).append (writeless_lands _ _ _)

theorem writeless_pumpLoop (name : String) (count : Nat) (sim : Simulation) :
    Writeless (pumpLoopHistory name count sim) := by
  induction count generalizing sim with
  | zero => exact .cons rfl .nil
  | succ count ih =>
    rw [pumpLoopHistory]
    cases (sim.wiring.channel name).next? with
    | none => exact .cons rfl .nil
    | some next =>
      refine (writeless_serve sim name next.1).append ?_
      split
      · exact .nil
      · exact ih _

theorem writeless_transmit (sim : Simulation) (index : Nat) (value : Value) :
    Writeless (sim.transmitHistory index value) := by
  unfold transmitHistory
  split
  · exact .nil
  · refine .cons rfl ?_
    unfold pumpHistory
    split
    · exact .cons rfl .nil
    · exact .cons rfl (writeless_pumpLoop _ _ _)

theorem writeless_transmitAll (value : Value) (indices : List Nat) (sim : Simulation) :
    Writeless (transmitAllHistory value indices sim) := by
  induction indices generalizing sim with
  | nil => exact .nil
  | cons index rest ih =>
    rw [transmitAllHistory]
    split
    · exact .nil
    · exact (writeless_transmit _ _ _).append (ih _)

/-! What is written is forwarded. -/

/-- If a port that sends takes a value, the value is delivered later over all links that leave the
port. -/
def Forwarded (links : List Link) (moment : Moment) (later : List Moment) : Prop :=
  ∀ port value, moment.event = .write port value →
    ∀ index link, links[index]? = some link → link.source = port →
      ∃ other ∈ later, other.event = .deliver link.channel ⟨index, value⟩

abbrev Forwards (links : List Link) (history : List Moment) : Prop :=
  Throughout (Forwarded links) history

section
variable {links : List Link} {history later : List Moment}

theorem Forwards.append (first : Forwards links history) (second : Forwards links later) :
    Forwards links (history ++ later) := by
  refine Throughout.append (fun moment rest h port value hevent index link hlink hsource => ?_)
    first second
  obtain ⟨other, hmem, hdeliver⟩ := h port value hevent index link hlink hsource
  exact ⟨other, List.mem_append_left _ hmem, hdeliver⟩

theorem Writeless.forwards (h : Writeless history) : Forwards links history := by
  induction history with
  | nil => trivial
  | cons moment rest ih =>
    obtain ⟨hfirst, hrest⟩ := List.forall_mem_cons.1 h
    refine ⟨fun port value hevent => ?_, ih hrest⟩
    rw [hevent] at hfirst
    cases hfirst

/-- The ports of a chain take a value, and then it is delivered over the links that leave them. -/
theorem forwards_writes {value : Value} {chain : List PortRef}
    (hdelivered : ∀ port ∈ chain, ∀ index link, links[index]? = some link → link.source = port →
      ∃ other ∈ later, other.event = .deliver link.channel ⟨index, value⟩)
    (hlater : Forwards links later) (sim : Simulation) :
    Forwards links (writeHistory value chain sim ++ later) := by
  induction chain generalizing sim with
  | nil => exact hlater
  | cons port rest ih =>
    obtain ⟨hfirst, hrest⟩ := List.forall_mem_cons.1 hdelivered
    refine ⟨fun written sent hevent index link hlink hsource => ?_, ih hrest _⟩
    cases hevent
    obtain ⟨other, hmem, hdeliver⟩ := hfirst index link hlink hsource
    exact ⟨other, List.mem_append_right _ hmem, hdeliver⟩

end

theorem transmitAll_delivers {value : Value} {indices : List Nat} {sim : Simulation}
    (hidle : sim.wiring.Idle) (hlive : (transmitAll value indices sim).halted = false) :
    ∀ index ∈ indices, ∀ link, sim.wiring.links[index]? = some link →
      ∃ moment ∈ transmitAllHistory value indices sim,
        moment.event = .deliver link.channel ⟨index, value⟩ := by
  induction indices generalizing sim with
  | nil => simp
  | cons first rest ih =>
    rw [transmitAll] at hlive
    rw [transmitAllHistory]
    cases hhalted : sim.halted with
    | true => simp [hhalted] at hlive
    | false =>
      simp only [hhalted, Bool.false_eq_true, if_false] at hlive ⊢
      intro index hmem link hlink
      rcases List.mem_cons.1 hmem with rfl | hrest
      · obtain ⟨before, after, hmoments, _⟩ := transmit_moments hlink hidle value
        refine ⟨⟨before, .deliver link.channel ⟨index, value⟩⟩, ?_, rfl⟩
        rw [hmoments]
        simp
      · have hlinks := (sim.transmit_leads first value).alike.1.links
        obtain ⟨moment, hfound, hdeliver⟩ :=
          ih (idle_transmit hidle hhalted first value) hlive index hrest link (hlinks ▸ hlink)
        exact ⟨moment, List.mem_append_right _ hfound, hdeliver⟩

section
variable {model : Model} {config : Config} {sim : Simulation}
  (halike : Alike (.new model config) sim) (hidle : sim.wiring.Idle)
include halike hidle

theorem forwards_sendAlong {chain : List PortRef} {value : Value}
    (hlive : (sim.sendAlong chain value).halted = false) :
    Forwards (Wiring.ofModel model).links (sim.sendAlongHistory chain value) := by
  have hlinks : sim.wiring.links = (Wiring.ofModel model).links := halike.links
  refine forwards_writes (fun port hport index link hlink hsource => ?_)
    (writeless_transmitAll _ _ _).forwards sim
  have hleaves : index ∈ chain.flatMap sim.wiring.linksFrom := by
    refine List.mem_flatMap.2 ⟨port, hport, ?_⟩
    exact (halike.indexed port index).2 ⟨link, hlinks ▸ hlink, hsource⟩
  let model' := chain.foldl (fun model port => model.setPort port value) sim.model
  exact @transmitAll_delivers value _ { sim with model := model' } hidle hlive index hleaves link
    (hlinks ▸ hlink)

theorem forwards_send {port : PortRef} {value : Value}
    (hlive : (sim.send port value).2.halted = false) :
    Forwards (Wiring.ofModel model).links (sim.sendHistory port value) := by
  unfold send at hlive
  unfold sendHistory
  cases hchain : sim.model.sendChain sim.limit port value with
  | error fault => trivial
  | ok chain =>
    rw [hchain] at hlive
    exact forwards_sendAlong halike hidle hlive

theorem forwards_emit {firing : Firing} {result : Option Value}
    (hlive : (sim.emit firing result).2.halted = false) :
    Forwards (Wiring.ofModel model).links (sim.emitHistory firing result) := by
  unfold emit at hlive
  unfold emitHistory
  cases hkey : firing.outputKey with
  | none => trivial
  | some key =>
    cases result with
    | none => trivial
    | some value =>
      simp only [hkey] at hlive
      dsimp only
      cases hchain : sim.resultChain firing value with
      | error fault => trivial
      | ok chain =>
        simp only [hchain] at hlive
        have hstored := halike.trans (.effect (.store firing.component key value) sim)
        exact ⟨fun _ _ hevent => (by cases hevent), forwards_sendAlong hstored hidle hlive⟩

theorem forwards_execute {firing : Firing} (hlive : (sim.execute firing).2.halted = false) :
    Forwards (Wiring.ofModel model).links (sim.executeHistory firing) := by
  unfold execute at hlive
  unfold executeHistory
  cases hexe : sim.model.executables.get? firing.executable with
  | none => trivial
  | some exe =>
    simp only [hexe] at hlive
    dsimp only
    cases hconstraint : sim.constraintOf firing with
    | error fault => trivial
    | ok constraint =>
      simp only [hconstraint] at hlive
      dsimp only
      cases hcompute : sim.compute firing exe constraint with
      | error fault => trivial
      | ok result =>
        simp only [hcompute] at hlive
        refine ⟨fun _ _ hevent => (by cases hevent), ?_⟩
        cases hcheck : checkResult (sim.record firing.executable .exec
          (some (exe.callRecord firing.args)) result) firing constraint result with
        | error fault => trivial
        | ok =>
          simp only [hcheck] at hlive
          have hran := halike.trans (.effect (.record firing.executable .exec
            (some (exe.callRecord firing.args)) result) sim)
          exact forwards_emit hran hidle hlive

theorem forwards_tryActivity {wakeup : Wakeup} {activity : String}
    (hlive : (sim.tryActivity wakeup activity).halted = false) :
    Forwards (Wiring.ofModel model).links (sim.tryActivityHistory wakeup activity) := by
  unfold tryActivity at hlive
  unfold tryActivityHistory
  cases hfiring : sim.firingFor? wakeup activity with
  | error fault => exact (writeless_fail sim activity .log none (.error fault)).forwards
  | ok plan =>
    cases plan with
    | none => trivial
    | some firing =>
      simp only [hfiring] at hlive
      exact (forwards_execute halike hidle (live_of_failIf hlive)).append
        (writeless_fail _ _ _ _ _).forwards

end

section
variable {model : Model} {config : Config}

theorem forwards_tryActivities {wakeup : Wakeup} (activities : List String) {sim : Simulation}
    (halike : Alike (.new model config) sim) (hidle : sim.wiring.Idle)
    (hlive : (tryActivities wakeup activities sim).halted = false) :
    Forwards (Wiring.ofModel model).links (tryActivitiesHistory wakeup activities sim) := by
  induction activities generalizing sim with
  | nil => trivial
  | cons activity rest ih =>
    rw [tryActivities] at hlive
    rw [tryActivitiesHistory]
    cases hhalted : sim.halted with
    | true => simp [hhalted] at hlive
    | false =>
      simp only [hhalted, Bool.false_eq_true, if_false] at hlive ⊢
      have hcourse := sim.tryActivity_course wakeup activity hhalted
      have hidle_next := (hcourse.exact (fun _ _ => Event.Plain.not_transport) hidle).1
      refine ⟨fun _ _ hevent => (by cases hevent), ?_⟩
      have hgoing := live_of_tryActivities hlive
      exact (forwards_tryActivity halike hidle hgoing).append
        (ih (halike.trans hcourse.checked.alike.1) hidle_next hlive)

theorem forwards_wake {sim : Simulation} (halike : Alike (.new model config) sim)
    (hidle : sim.wiring.Idle) {wakeup : Wakeup} (hlive : (sim.wake wakeup).halted = false) :
    Forwards (Wiring.ofModel model).links (sim.wakeHistory wakeup) := by
  have hawake := halike.trans (.effect (.wake wakeup) sim)
  refine ⟨fun _ _ hevent => (by cases hevent), ?_⟩
  exact (forwards_tryActivities _ hawake hidle hlive).append
    (Writeless.cons rfl .nil).forwards

variable {sim last : Simulation} {history : List Moment}

theorem Rounds.live_start (rounds : Rounds sim history last) (hlive : last.halted = false) :
    sim.halted = false := by
  cases rounds with
  | nil => exact hlive
  | cons live => exact live

theorem Ends.live_start (ends : Ends sim history last) (hlive : last.halted = false) :
    sim.halted = false := by
  cases ends with
  | settled => exact hlive
  | stopped => exact hlive
  | overrun live => exact live

theorem Ends.writeless (ends : Ends sim history last) : Writeless history := by
  cases ends with
  | settled => exact .nil
  | stopped => exact .cons rfl .nil
  | overrun => exact .cons rfl (.cons rfl .nil)

theorem Rounds.forwards (rounds : Rounds sim history last) (halike : Alike (.new model config) sim)
    (hidle : sim.wiring.Idle) (hlive : last.halted = false) :
    Forwards (Wiring.ofModel model).links history := by
  induction rounds with
  | nil => trivial
  | @cons sim last wakeup rest history live next shallow tail ih =>
    have hpopped := halike.trans (.popped sim rest)
    have hserved := @wake_exact { sim with wakeups := rest } hidle wakeup
    have hwake := @forwards_wake _ _ { sim with wakeups := rest } hpopped hidle wakeup
      (tail.live_start hlive)
    refine ⟨fun _ _ hevent => (by cases hevent), hwake.append ?_⟩
    exact ih (hpopped.trans (wake_leads ..).alike.1) hserved.1 hlive

theorem forwards_drain (h : Steady model config sim) (hidle : sim.wiring.Idle)
    (hlive : sim.drain.halted = false) :
    sim.halted = false ∧ Forwards (Wiring.ofModel model).links sim.drainHistory := by
  obtain ⟨rounds, mid, ending, hrounds, hends, hhistory⟩ := h.rounds
  have hmid := hends.live_start hlive
  rw [hhistory]
  exact ⟨hrounds.live_start hmid, fun _ _ hevent => (by cases hevent),
    (hrounds.forwards h.alike hidle hmid).append hends.writeless.forwards⟩

theorem forwards_submit {qualified : String} {value : Value} (halike : Alike (.new model config) sim)
    (hidle : sim.wiring.Idle) (hlive : (sim.submit qualified value).2.halted = false) :
    Forwards (Wiring.ofModel model).links (sim.submitHistory qualified value) := by
  unfold submit at hlive
  unfold submitHistory
  cases hparse : PortRef.parse qualified with
  | error fault => trivial
  | ok port =>
    simp only [hparse] at hlive
    dsimp only
    cases hresolve : sim.model.resolve port with
    | error fault => trivial
    | ok resolved =>
      simp only [hresolve] at hlive
      dsimp only
      cases hsend : resolved.direction.canSend with
      | true =>
        simp only [hsend, if_true] at hlive ⊢
        exact forwards_send halike hidle hlive
      | false => exact (writeless_receive sim port value).forwards

/-- A value from outside that is accepted, and all that its arrival makes other ports send, is
delivered over all links that leave the ports it is written to. -/
theorem forwards_sendToPort {qualified : String} {value : Value} (h : Steady model config sim)
    (hidle : sim.wiring.Idle) (haccepted : (sim.sendToPort qualified value).1 = true) :
    Forwards (Wiring.ofModel model).links (sim.sendToPortHistory qualified value) := by
  have hresumed := h.resumed
  have hcourse := submit_course { sim with halted := false } qualified value rfl
  have hforwards := @forwards_submit _ _ { sim with halted := false } qualified value
    hresumed.alike hidle
  unfold sendToPort at haccepted
  refine ⟨fun _ _ hevent => (by cases hevent), ?_⟩
  cases hsubmit : submit { sim with halted := false } qualified value with
  | mk outcome submitted =>
    rw [hsubmit] at haccepted hcourse hforwards
    cases outcome with
    | error fault => cases haccepted
    | ok =>
      have hsteady := Steady.of_course hcourse hresumed
      have hsent := (hcourse.exact (fun _ _ => Event.Plain.not_transport) hidle).1
      have hsettled : submitted.drain.halted = false := by simpa using haccepted
      obtain ⟨hlive, hdrain⟩ := forwards_drain hsteady hsent hsettled
      exact (hforwards hlive).append hdrain

end

/-! Which operations leave the channels idle. -/

theorem fatals_lands (value : Value) (targets : List PortRef) (sim : Simulation) :
    (targets.foldl (fun sim target => sim.land value target) sim).trace.fatals =
      sim.trace.fatals := by
  induction targets generalizing sim with
  | nil => rfl
  | cons port rest ih =>
    refine (ih _).trans ?_
    unfold land
    dsimp only
    split <;> exact Trace.fatals_record ..

theorem Ran.fatals {executable : Option String} {sim ran : Simulation} (h : Ran executable sim ran) :
    ran.trace.fatals = sim.trace.fatals := by
  rcases h with rfl | ⟨name, input, output, _, rfl⟩
  · rfl
  · exact Trace.fatals_record ..

/-- A failure leaves the channels as they are, or it is fatal and they are idle. -/
theorem fail_fatals (sim : Simulation) (element : String) (kind : StepKind) (input : Option Value)
    (fault : Fault) :
    (sim.fail element kind input fault).trace.fatals = sim.trace.fatals ∧
        (sim.fail element kind input fault).wiring = sim.wiring ∨
      (sim.fail element kind input fault).trace.fatals ≠ sim.trace.fatals ∧
        (sim.fail element kind input fault).wiring.Idle := by
  unfold fail
  split
  · next hfatal =>
    refine .inr ⟨?_, Wiring.idle_abortAll _⟩
    simp [halt, Trace.fatals, Trace.recordFault, Trace.Entry.isFatal, hfatal]
  · next hfault =>
    exact .inl ⟨Trace.fatals_recordFault _ _ _ _ (Bool.eq_false_iff.2 hfault), rfl⟩

theorem serve_fatals (sim : Simulation) (name : String) (delivery : Delivery) :
    (sim.serve name delivery).trace.fatals = sim.trace.fatals ∧
        (sim.serve name delivery).wiring = ((Event.deliver name delivery).effect sim).wiring ∨
      (sim.serve name delivery).trace.fatals ≠ sim.trace.fatals ∧
        (sim.serve name delivery).wiring.Idle := by
  unfold serve
  have htrace : ((Event.deliver name delivery).effect sim).trace = sim.trace := rfl
  rw [← htrace]
  generalize (Event.deliver name delivery).effect sim = taken
  rcases taken.deliver_cases delivery with
    ⟨fault, ran, hdeliver, hran, _⟩ | ⟨link, carried, targets, ran, _, hran, _, hdeliver, _⟩
  · rw [hdeliver, ← hran.fatals, ← hran.wiring]
    exact ran.fail_fatals ..
  · rw [hdeliver]
    exact .inl ⟨(fatals_lands ..).trans hran.fatals, (wiring_lands ..).trans hran.wiring⟩

/-- After a halt, a transmission does not release its channel, unless it halts the run anew. -/
theorem idle_transmit_halted_iff {sim : Simulation} {index : Nat} {link : Link}
    (hlink : sim.wiring.links[index]? = some link) (hidle : sim.wiring.Idle)
    (hhalted : sim.halted = true) (value : Value) :
    (sim.transmit index value).wiring.Idle ↔
      (sim.transmit index value).trace.fatals ≠ sim.trace.fatals := by
  obtain ⟨_, _, htrace, hclaimed, _⟩ := claimed_of_link hlink value
  have hserved : (sim.served link ⟨index, value⟩).halted = true := by
    rcases (sim.claimed link ⟨index, value⟩).serve_wiring link.channel ⟨index, value⟩ with
      ⟨hsame, _⟩ | ⟨hstopped, _⟩
    · exact hsame.trans (hclaimed.trans hhalted)
    · exact hstopped
  rw [(transmit_idle hlink hidle value).2, if_pos hserved, served, ← htrace]
  rcases (sim.claimed link ⟨index, value⟩).serve_fatals link.channel ⟨index, value⟩ with
    ⟨hfatals, hwiring⟩ | ⟨hfatals, hwiring⟩
  · refine iff_of_false (fun h => ?_) fun h => h hfatals
    have hchannel := h link.channel
    rw [hwiring, Event.effect, putChannel, Wiring.channel_putChannel, channel_claimed hlink hidle,
      if_pos rfl, if_pos rfl] at hchannel
    cases hchannel
  · exact iff_of_true hwiring hfatals

/-- The operation leaves a channel claimed: it is a transmission over a link of the model, in a run
that has halted before, and does not halt the run anew. -/
def Operation.Strands (sim : Simulation) : Operation → Prop
  | .transmit index value => sim.halted = true ∧ index < sim.wiring.links.length ∧
      (sim.transmit index value).trace.fatals = sim.trace.fatals
  | _ => False

theorem idle_transmit_iff {sim : Simulation} (hidle : sim.wiring.Idle) (index : Nat) (value : Value) :
    (sim.transmit index value).wiring.Idle ↔ ¬(Operation.transmit index value).Strands sim := by
  unfold Operation.Strands
  cases hlink : sim.wiring.links[index]? with
  | none =>
    have hmissing := List.getElem?_eq_none_iff.1 hlink
    rw [show sim.transmit index value = sim by simp only [transmit, hlink]]
    exact iff_of_true hidle fun h => absurd h.2.1 (Nat.not_lt.2 hmissing)
  | some link =>
    obtain ⟨hbound, _⟩ := List.getElem?_eq_some_iff.1 hlink
    cases hhalted : sim.halted with
    | false => exact iff_of_true (idle_transmit hidle hhalted index value) fun h => by cases h.1
    | true =>
      rw [idle_transmit_halted_iff hlink hidle hhalted]
      simp [hbound]

section
variable {model : Model} {config : Config} {sim : Simulation}

theorem idle_apply_iff (h : Steady model config sim) (hidle : sim.wiring.Idle)
    (operation : Operation) :
    (operation.apply model config sim).wiring.Idle ↔ ¬operation.Strands sim := by
  cases operation with
  | transmit index value => exact idle_transmit_iff hidle index value
  | send port value =>
    have hcourse : Course (Event.Plain False) sim _ _ := send_course sim port value False.elim
    exact iff_of_true (hcourse.exact (fun _ _ => Event.Plain.not_transport) hidle).1 id
  | receive port value =>
    have hcourse := Course.of_leads (receive_leads False sim port value False.elim)
    exact iff_of_true (hcourse.exact (fun _ _ => Event.Plain.not_transport) hidle).1 id
  | drain => exact iff_of_true (drain_exact h hidle).1 id
  | sendToPort qualified value =>
    exact iff_of_true ((sim.sendToPort_driven qualified value).exact h hidle).1 id
  | run inputs =>
    have hdriven := simulate_driven model config inputs
    exact iff_of_true (hdriven.exact (.new model config) (Wiring.idle_ofModel model)).1 id

def Regular (model : Model) (config : Config) : Simulation → List Operation → Prop
  | _, [] => True
  | sim, operation :: rest =>
      ¬operation.Strands sim ∧ Regular model config (operation.apply model config sim) rest

theorem idle_foldl_iff (h : Steady model config sim) (hidle : sim.wiring.Idle)
    (operations : List Operation) :
    (∀ earlier, earlier <+: operations →
      (earlier.foldl (fun sim operation => operation.apply model config sim) sim).wiring.Idle) ↔
      Regular model config sim operations := by
  induction operations generalizing sim with
  | nil =>
    refine iff_of_true (fun earlier hprefix => ?_) trivial
    rw [List.prefix_nil.1 hprefix]
    exact hidle
  | cons operation rest ih =>
    have hnext := (h.operation operation).1
    constructor
    · intro hall
      have hfirst := hall [operation] (List.prefix_cons_inj operation |>.2 rest.nil_prefix)
      refine ⟨(idle_apply_iff h hidle operation).1 hfirst, (ih hnext hfirst).1 ?_⟩
      exact fun earlier hprefix => hall (operation :: earlier) ((List.prefix_cons_inj _).2 hprefix)
    · rintro ⟨hkept, hregular⟩ earlier hprefix
      have hfirst := (idle_apply_iff h hidle operation).2 hkept
      rcases List.prefix_cons_iff.1 hprefix with rfl | ⟨tail, rfl, htail⟩
      · exact hidle
      · exact (ih hnext hfirst).2 hregular tail htail

end

end Simulation

/-- A source with two lines through one wire, one to a composite and one to a plain sink. -/
def fork : Model where
  name := "fork"
  components := .ofList [
    ("source", {
      name := "source"
      ports := [⟨"deep", .output, "source", .boolean, none⟩,
        ⟨"out", .output, "source", .boolean, none⟩] }),
    ("box", {
      name := "box"
      ports := [⟨"in", .input, "box", .boolean, none⟩]
      subcomponents := ["core"]
      delegations := [⟨"in", ⟨"core", "in"⟩⟩] }),
    ("core", {
      name := "core"
      ports := [⟨"in", .input, "core", .boolean, none⟩] }),
    ("sink", {
      name := "sink"
      ports := [⟨"in", .input, "sink", .boolean, none⟩] })]
  connectors := .ofList [("wire", {
    name := "wire"
    flows := [⟨⟨"source", "deep"⟩, ⟨"box", "in"⟩, .boolean⟩,
      ⟨⟨"source", "out"⟩, ⟨"sink", "in"⟩, .boolean⟩] })]

namespace Simulation

/-- All channels are idle after every operation exactly when no operation strands one. Then a value
from outside that is accepted is delivered over every link that leaves a port it is written to, and
so is everything that ports send in reaction to it. -/
theorem idle_iff_regular (model : Model) (config : Config) (operations : List Operation) :
    ((∀ earlier, earlier <+: operations → (after model config earlier).wiring.Idle) ↔
      Regular model config (.new model config) operations) ∧
    ∀ qualified value,
      let sim := after model config operations
      let history := sim.sendToPortHistory qualified value
      Regular model config (.new model config) operations →
      (sim.sendToPort qualified value).1 = true →
      Leads Event.Checked sim history (sim.sendToPort qualified value).2 ∧
        ∀ earlier written port sent later, history = earlier ++ ⟨written, .write port sent⟩ :: later →
          ∀ index link, (Wiring.ofModel model).links[index]? = some link → link.source = port →
            ∃ moment ∈ later, moment.event = .deliver link.channel ⟨index, sent⟩ := by
  have hiff := idle_foldl_iff (.new model config) (Wiring.idle_ofModel model) operations
  refine ⟨hiff, ?_⟩
  intro qualified value sim history hregular haccepted
  have hidle := hiff.2 hregular operations (List.prefix_refl _)
  have hsteady := steady_after model config operations
  refine ⟨(sim.sendToPort_driven qualified value).leads, ?_⟩
  intro earlier written port sent later hsplit index link
  have hforwards := forwards_sendToPort hsteady hidle haccepted
  rw [show sim.sendToPortHistory qualified value = _ from hsplit] at hforwards
  exact hforwards.of_split port sent rfl index link

theorem Event.eq_write {event : Event} {port : PortRef} {value : Value}
    (h : event.write? = some (port, value)) : event = .write port value := by
  cases event with
  | write =>
    cases h
    rfl
  | _ => cases h

/-- After a transmission that halts the run, the other line still works. -/
theorem idle_iff_regular_fork :
    let config : Config := { maxCascadeDepth := 0 }
    let sim := after fork config [.transmit 0 (.bool true)]
    sim.halted = true ∧ Regular fork config (.new fork config) [.transmit 0 (.bool true)] ∧
      (sim.sendToPort "source.out" (.bool false)).1 = true ∧
      ∃ moment ∈ sim.sendToPortHistory "source.out" (.bool false),
        moment.event = .deliver "wire" ⟨1, .bool false⟩ := by
  intro config sim
  have hregular : Regular fork config (.new fork config) [.transmit 0 (.bool true)] :=
    ⟨fun h => (by cases h.1), trivial⟩
  have haccepted : (sim.sendToPort "source.out" (.bool false)).1 = true := by decide +kernel
  have hwrite : (⟨"source", "out"⟩, .bool false) ∈
      collect Event.write? (sim.sendToPortHistory "source.out" (.bool false)) := by decide +kernel
  obtain ⟨earlier, written, event, later, hsplit, hevent⟩ := exists_of_mem_collect hwrite
  rw [Event.eq_write hevent] at hsplit
  obtain ⟨_, hforwards⟩ := (idle_iff_regular fork config [.transmit 0 (.bool true)]).2
    "source.out" (.bool false) hregular haccepted
  obtain ⟨moment, hmem, hdeliver⟩ := hforwards earlier written _ _ later hsplit 1
    ⟨⟨"source", "out"⟩, ⟨"sink", "in"⟩, some "wire", .boolean, "wire"⟩ rfl rfl
  refine ⟨by decide +kernel, hregular, haccepted, moment, ?_, hdeliver⟩
  rw [hsplit]
  exact List.mem_append_right _ (List.mem_cons_of_mem _ hmem)

/-- A transmission in the run that has halted strands the wire: a value from outside is accepted
later, and not delivered. -/
theorem stranded_fork :
    let config : Config := { maxCascadeDepth := 0 }
    let sim := after fork config [.transmit 0 (.bool true), .transmit 1 (.bool true)]
    sim.wiring.channel "wire" = { pending := [], delivering := true } ∧ ¬sim.wiring.Idle ∧
      (sim.sendToPort "source.out" (.bool false)).1 = true ∧
      deliveries (sim.sendToPortHistory "source.out" (.bool false)) = [] ∧
      (sim.sendToPort "source.out" (.bool false)).2.wiring.channel "wire" =
        { pending := [⟨1, .bool false⟩], delivering := true } := by
  intro config sim
  have hclaimed : sim.wiring.channel "wire" = { pending := [], delivering := true } := by
    decide +kernel
  refine ⟨hclaimed, fun hidle => ?_, ?_, ?_, ?_⟩
  · rw [hidle "wire"] at hclaimed
    cases hclaimed
  · decide +kernel
  · decide +kernel
  · decide +kernel

end Simulation
end Archflow
