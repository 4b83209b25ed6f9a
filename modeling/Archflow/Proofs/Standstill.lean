import Archflow.Proofs.Atomicity
import Archflow.Proofs.Halt

/-!
What still happens in a run after it has halted. All work of a run is done before the halt; the loops
that are under way only notice it and end. The one exception is a protocol that was running: its
machine goes on until it wants to send again, and then what it has done is recorded. So a run halts
at most once, and its ports and states are in the end as they were at the halt.
-/
namespace Archflow

namespace Trace

def fatals (trace : Trace) : List Entry := trace.entries.toList.filter Entry.isFatal

theorem halted_eq (trace : Trace) : trace.halted = !trace.fatals.isEmpty := by
  unfold halted fatals
  induction trace.entries.toList with
  | nil => rfl
  | cons entry rest ih =>
    rw [List.any_cons, ih, List.filter_cons]
    cases entry.isFatal <;> simp

@[simp] theorem fatals_record (trace : Trace) (element : String) (kind : StepKind)
    (input output : Option Value) :
    (trace.record element kind input output).fatals = trace.fatals := by
  simp [fatals, record, Entry.isFatal]

theorem fatals_recordFault (trace : Trace) (element : String) (kind : StepKind)
    (input : Option Value) {fault : Fault} (h : fault.isFatal = false) :
    (trace.recordFault element kind input fault).fatals = trace.fatals := by
  simp [fatals, recordFault, Entry.isFatal, h]

end Trace

namespace Simulation

/-- The events that do nothing in a run that has halted. -/
def Event.isMark : Event → Bool
  | .drain | .rest _ => true
  | _ => false

/-- The run is halted only for a fatal fault. -/
def Event.isJustified : Event → Bool
  | .halt fault => fault.isFatal
  | _ => true

namespace Moment

def Records (moment : Moment) (entry : Trace.Entry) : Prop :=
  (moment.event.effect moment.sim).trace.entries.toList = moment.sim.trace.entries.toList ++ [entry]

/-- The run has not halted yet; if it is halted now, then for a fatal fault. -/
def Live (moment : Moment) : Prop :=
  moment.sim.halted = false ∧ moment.event.isJustified = true

/-- Nothing happens, except that a result of the given protocol is put on record. -/
def Still (speaker : Option Protocol) (moment : Moment) : Prop :=
  moment.event.isMark = true ∨
    ∃ protocol ∈ speaker, ∃ input output,
      moment.event = .record protocol.name .protocol input output

end Moment

/-- Everything happens before a halt. -/
def Live (history : List Moment) : Prop := ∀ moment ∈ history, moment.Live

/-- After a halt nothing happens, except that results of the given protocol are put on record. -/
def Calm (speaker : Option Protocol) (history : List Moment) : Prop :=
  ∀ moment ∈ history, moment.Live ∨ moment.Still speaker

theorem Live.nil : Live [] := fun _ hmem => by cases hmem

theorem Live.append {history later : List Moment} (first : Live history) (second : Live later) :
    Live (history ++ later) := List.forall_mem_append.2 ⟨first, second⟩

theorem Live.cons {moment : Moment} {history : List Moment} (first : moment.Live)
    (rest : Live history) : Live (moment :: history) := List.forall_mem_cons.2 ⟨first, rest⟩

theorem Live.single {moment : Moment} (h : moment.Live) : Live [moment] := .cons h .nil

section
variable {speaker : Option Protocol} {history later : List Moment}

theorem Live.calm (h : Live history) : Calm speaker history := fun moment hmem => .inl (h moment hmem)

theorem Calm.nil : Calm speaker [] := Live.nil.calm

theorem Calm.cons {moment : Moment} (first : moment.Live ∨ moment.Still speaker)
    (rest : Calm speaker history) : Calm speaker (moment :: history) :=
  List.forall_mem_cons.2 ⟨first, rest⟩

theorem Calm.append (first : Calm speaker history) (second : Calm speaker later) :
    Calm speaker (history ++ later) := List.forall_mem_append.2 ⟨first, second⟩

end

/-! All work that starts before a halt is done before it. -/

section
variable {sim : Simulation} (h : sim.halted = false)
include h

theorem live_lands (value : Value) (targets : List PortRef) : Live (landHistory value targets sim) := by
  induction targets generalizing sim with
  | nil => exact .nil
  | cons port rest ih => exact .cons ⟨h, rfl⟩ (ih ((halted_land ..).trans h))

theorem live_receive (port : PortRef) (value : Value) : Live (sim.receiveHistory port value) := by
  unfold receiveHistory
  split
  · exact .nil
  · exact live_lands h _ _

theorem live_transform (transform : Option String) (raw : Value) :
    Live (sim.transformHistory transform raw) := by
  unfold transformHistory
  split
  · exact .nil
  · split
    · exact .nil
    · split
      · exact .single ⟨h, rfl⟩
      · exact .nil

theorem live_deliver (delivery : Delivery) : Live (sim.deliverHistory delivery) := by
  rcases sim.deliver_cases delivery with
    ⟨fault, ran, _, _, hhistory, _⟩ | ⟨link, carried, targets, ran, _, hran, _, _, hhistory, _⟩
  · rw [hhistory]
    exact live_transform h _ _
  · rw [hhistory]
    exact (live_transform h _ _).append (live_lands (hran.halted.trans h) _ _)

omit h in
theorem live_fail (element : String) (kind : StepKind) (input : Option Value)
    (outcome : Except Fault Unit) (h : ∀ fault, outcome = .error fault → sim.halted = false) :
    Live (sim.failHistory element kind input outcome) := by
  cases outcome with
  | ok => exact .nil
  | error fault => exact .single ⟨h fault rfl, rfl⟩

theorem live_serve (name : String) (delivery : Delivery) : Live (sim.serveHistory name delivery) := by
  have htaken : ((Event.deliver name delivery).effect sim).halted = false := h
  refine .cons ⟨h, rfl⟩ ((live_deliver htaken delivery).append (live_fail _ _ _ _ fun _ _ => ?_))
  exact (halted_deliver ..).trans htaken

theorem live_pumpLoop (name : String) (count : Nat) : Live (pumpLoopHistory name count sim) := by
  induction count generalizing sim with
  | zero => exact .single ⟨h, rfl⟩
  | succ count ih =>
    rw [pumpLoopHistory]
    cases (sim.wiring.channel name).next? with
    | none => exact .single ⟨h, rfl⟩
    | some next =>
      refine (live_serve h name next.1).append ?_
      split
      · exact .nil
      · next hlive => exact ih (Bool.eq_false_iff.2 hlive)

theorem live_transmit (index : Nat) (value : Value) : Live (sim.transmitHistory index value) := by
  unfold transmitHistory
  cases hlink : sim.wiring.links[index]? with
  | none => exact .nil
  | some link =>
    have hsent : ((Event.transmit index value).effect sim).halted = false := by
      simp only [Event.effect, hlink]
      exact h
    refine .cons ⟨h, rfl⟩ ?_
    unfold pumpHistory
    split
    · exact .single ⟨hsent, rfl⟩
    · exact .cons ⟨hsent, rfl⟩ (@live_pumpLoop (putChannel _ _ _) hsent _ _)

theorem live_writes (value : Value) (chain : List PortRef) : Live (writeHistory value chain sim) := by
  induction chain generalizing sim with
  | nil => exact .nil
  | cons port rest ih => exact .cons ⟨h, rfl⟩ (ih h)

omit h in
theorem live_transmitAll (value : Value) (indices : List Nat) (sim : Simulation) :
    Live (transmitAllHistory value indices sim) := by
  induction indices generalizing sim with
  | nil => exact .nil
  | cons index rest ih =>
    rw [transmitAllHistory]
    split
    · exact .nil
    · next hlive => exact (live_transmit (Bool.eq_false_iff.2 hlive) index value).append (ih _)

theorem live_sendAlong (chain : List PortRef) (value : Value) :
    Live (sim.sendAlongHistory chain value) :=
  (live_writes h value chain).append (live_transmitAll _ _ _)

theorem live_send (port : PortRef) (value : Value) : Live (sim.sendHistory port value) := by
  unfold sendHistory
  split
  · exact .nil
  · exact live_sendAlong h _ _

theorem live_emit (firing : Firing) (result : Option Value) : Live (sim.emitHistory firing result) := by
  unfold emitHistory
  split
  · split
    · exact .nil
    · exact .cons ⟨h, rfl⟩ (@live_sendAlong { sim with model := sim.model.setState _ _ _ } h _ _)
  · exact .nil

theorem live_execute (firing : Firing) : Live (sim.executeHistory firing) := by
  unfold executeHistory
  split
  · exact .nil
  · split
    · exact .nil
    · split
      · exact .nil
      · refine .cons ⟨h, rfl⟩ ?_
        split
        · exact .nil
        · exact @live_emit (sim.record ..) h _ _

/-- A firing that fails has not halted the run, so its failure is recorded before any halt. -/
theorem live_tryActivity (wakeup : Wakeup) (activity : String) :
    Live (sim.tryActivityHistory wakeup activity) := by
  unfold tryActivityHistory
  split
  · exact .single ⟨h, rfl⟩
  · exact .nil
  · next firing _ =>
    refine (live_execute h firing).append (live_fail _ _ _ _ fun fault hfault => ?_)
    exact (execute_error (Prod.ext hfault rfl)).halted.trans h

end

theorem live_tryActivities (wakeup : Wakeup) (activities : List String) (sim : Simulation) :
    Live (tryActivitiesHistory wakeup activities sim) := by
  induction activities generalizing sim with
  | nil => exact .nil
  | cons activity rest ih =>
    rw [tryActivitiesHistory]
    split
    · exact .nil
    · next hlive =>
      have hlive := Bool.eq_false_iff.2 hlive
      exact .cons ⟨hlive, rfl⟩ ((live_tryActivity hlive wakeup activity).append (ih _))

/-! Drains, and all that drives a run. -/

section
variable {speaker : Option Protocol} {sim : Simulation}

theorem calm_wake (h : sim.halted = false) (wakeup : Wakeup) :
    Calm speaker (sim.wakeHistory wakeup) := by
  have hrest : Calm speaker [⟨tryActivities wakeup (sim.realization.activitiesOf wakeup.component)
      { sim with depth := wakeup.depth + 1 }, .rest sim.depth⟩] := .cons (.inr (.inl rfl)) .nil
  exact .cons (.inl ⟨h, rfl⟩) ((live_tryActivities _ _ _).calm.append hrest)

theorem calm_drainLoop (fuel : Nat) (h : Cleared sim) : Calm speaker (drainLoopHistory fuel sim) := by
  induction fuel generalizing sim with
  | zero => exact .nil
  | succ fuel ih =>
    rw [drainLoopHistory]
    cases hwakeups : sim.wakeups with
    | nil => exact .nil
    | cons wakeup rest =>
      -- A wake-up waits, so the run has not halted.
      have hlive : sim.halted = false := by
        rw [Bool.eq_false_iff]
        intro hhalted
        rw [h hhalted] at hwakeups
        cases hwakeups
      refine .cons (.inl ⟨hlive, rfl⟩) ?_
      dsimp only
      split
      · exact .nil
      · split
        · exact .cons (.inl ⟨hlive, rfl⟩) .nil
        · exact (@calm_wake speaker { sim with wakeups := rest } hlive wakeup).append
            (ih (@cleared_wake { sim with wakeups := rest } hlive wakeup))

theorem calm_drain (h : Cleared sim) : Calm speaker sim.drainHistory :=
  .cons (.inr (.inl rfl)) (calm_drainLoop _ h)

theorem live_inject (h : sim.halted = false) (port : PortRef) (value : Value) :
    Live (sim.injectHistory port value) := by
  unfold injectHistory
  split
  · exact .nil
  · split
    · exact live_receive h _ _
    · split
      · exact .nil
      · exact .single ⟨h, rfl⟩

theorem live_injectNamed (h : sim.halted = false) (qualified : String) (value : Value) :
    Live (sim.injectNamedHistory qualified value) := by
  unfold injectNamedHistory
  split
  · exact .nil
  · exact live_inject h _ _

theorem halted_receive (sim : Simulation) (port : PortRef) (value : Value) :
    (sim.receive port value).2.halted = sim.halted := by
  unfold receive
  split
  · rfl
  · exact halted_lands _ _ _

theorem halted_injectNamed (sim : Simulation) (qualified : String) (value : Value) :
    (sim.injectNamed qualified value).2.halted = sim.halted := by
  unfold injectNamed
  split
  · rfl
  · unfold inject
    split
    · rfl
    · split
      · exact halted_receive _ _ _
      · split <;> rfl

theorem calm_seedInput (h : sim.halted = false) (qualified : String) (value : Value) :
    Calm speaker (sim.seedInputHistory qualified value) := by
  have hinjected : (sim.injectNamed qualified value).2.halted = false :=
    (halted_injectNamed ..).trans h
  have hseeded := (live_injectNamed h qualified value).append
    (live_fail qualified .log (some value) (sim.injectNamed qualified value).1 fun _ _ => hinjected)
  exact hseeded.calm.append (calm_drain (cleared_failIf (cleared_of_live hinjected) _ _ _ _))

theorem calm_propagate (h : sim.halted = false) (index : Nat) :
    Calm speaker (sim.propagateHistory index) := by
  unfold propagateHistory
  split
  · exact .nil
  · split
    · exact (live_transmit h _ _).calm.append (calm_drain (cleared_transmit h _ _))
    · exact .nil

/-- A send of a protocol and the reactions to it. -/
theorem calm_loggedAccess {component port : String} {value : Value}
    {store next : Simulation × List Moment}
    (hsend : (loggedAccess component).send store port value = .ok next)
    (h : Calm speaker store.2) : Calm speaker next.2 := by
  obtain ⟨hlive, rfl⟩ := loggedAccess_send hsend
  have hcourse := (send_course store.1 ⟨component, port⟩ value fun _ => hlive).mono
    fun _ _ => Event.Plain.reacts
  have hcleared := hcourse.cleared (cleared_of_live hlive)
  exact h.append ((live_send hlive _ _).calm.append (calm_drain hcleared))

theorem calm_records (protocol : Protocol) (results : List Protocol.Result) (sim : Simulation) :
    Calm (some protocol) (foldHistory (recordResult protocol)
      (fun sim result => [⟨sim, .record protocol.name .protocol
        (some (.text s!"{result.operation.text} {result.port}")) (some result.value)⟩])
      results sim) := by
  induction results generalizing sim with
  | nil => exact .nil
  | cons result rest ih => exact .cons (.inr (.inr ⟨protocol, rfl, _, _, rfl⟩)) (ih _)

theorem calm_protocol (sim : Simulation) (protocol : Protocol) (component : String) :
    Calm (some protocol) (sim.protocolHistory protocol component) := by
  have hsends := @Protocol.Machine.run_preserves _ (loggedAccess component)
    (fun store => Calm (some protocol) store.2) protocol sim.model.symbols
    (fun _ _ _ _ _ => calm_loggedAccess) sim.config.protocolIterations {} (sim, []) .nil
  unfold protocolHistory
  refine (hsends.append (calm_records _ _ _)).append ?_
  unfold unlessHaltedHistory
  split
  · exact .nil
  · next hlive => exact (live_fail _ _ _ _ fun _ _ => Bool.eq_false_iff.2 hlive).calm

theorem live_submit (h : sim.halted = false) (qualified : String) (value : Value) :
    Live (sim.submitHistory qualified value) := by
  unfold submitHistory
  split
  · exact .nil
  · split
    · exact .nil
    · split
      · exact live_send h _ _
      · exact live_receive h _ _

/-- All that a value from outside sets off, once the run goes on. -/
theorem calm_resumed (sim : Simulation) (qualified : String) (value : Value) :
    Calm speaker (sim.sendToPortHistory qualified value).tail := by
  have hsubmit := @live_submit { sim with halted := false } rfl qualified value
  have hcourse := (submit_course { sim with halted := false } qualified value rfl).mono
    fun _ _ => Event.Plain.reacts
  have hcleared := hcourse.cleared (cleared_of_live rfl)
  refine hsubmit.calm.append ?_
  split
  · next fault submitted hsubmitted =>
    obtain ⟨rfl, _⟩ := submit_error hsubmitted
    exact (Live.single ⟨rfl, rfl⟩).calm
  · next submitted hsubmitted =>
    rw [hsubmitted] at hcleared
    exact calm_drain hcleared

theorem live_orphan (h : sim.halted = false) (supplied : Table (List Value)) (name : String) :
    Live (sim.orphanHistory supplied name) := by
  unfold orphanHistory
  split
  · exact .nil
  · dsimp only
    split
    · exact .single ⟨h, rfl⟩
    · exact .single ⟨h, rfl⟩

end

/-! What a halt leaves unchanged. -/

def Tells (speaker : Option Protocol) (entry : Trace.Entry) : Prop :=
  ∃ protocol ∈ speaker,
    entry.element = protocol.name ∧ entry.kind = .protocol ∧ entry.fault = none

theorem Tells.not_fatal {speaker : Option Protocol} {entry : Trace.Entry} (h : Tells speaker entry) :
    entry.isFatal = false := by
  obtain ⟨protocol, _, _, _, hfault⟩ := h
  simp [Trace.Entry.isFatal, hfault]

/-- How things stand in the end when the run has halted at a moment: port values and states are as
they were then, and the trace tells besides at most of successes of the given protocol. -/
structure Frozen (speaker : Option Protocol) (moment : Moment) (later : List Moment)
    (last : Simulation) : Prop where
  model_eq : last.model = moment.sim.model
  models_eq : ∀ other ∈ later, other.sim.model = moment.sim.model
  entries : ∃ added,
    last.trace.entries.toList =
        (moment.event.effect moment.sim).trace.entries.toList ++ added ∧
      ∀ entry ∈ added, Tells speaker entry

section
variable {admits : Simulation → Event → Prop} {speaker : Option Protocol} {sim last : Simulation}
  {history : List Moment}

theorem still_effect {event : Event} (h : Moment.Still speaker ⟨sim, event⟩) :
    (event.effect sim).halted = sim.halted ∧ (event.effect sim).model = sim.model ∧
      ∃ added, (event.effect sim).trace.entries.toList = sim.trace.entries.toList ++ added ∧
        ∀ entry ∈ added, Tells speaker entry := by
  rcases h with hmark | ⟨protocol, hspeaker, input, output, hevent⟩
  · cases event with
    | drain | rest => exact ⟨rfl, rfl, [], (List.append_nil _).symm, by simp⟩
    | _ => cases hmark
  · obtain rfl : event = .record protocol.name .protocol input output := hevent
    refine ⟨rfl, rfl, _, Trace.entries_push .., fun entry hmem => ?_⟩
    rw [List.mem_singleton.1 hmem]
    exact ⟨protocol, hspeaker, rfl, rfl, rfl⟩

theorem Leads.still (leads : Leads admits sim history last) (calm : Calm speaker history)
    (h : sim.halted = true) :
    last.halted = true ∧ last.model = sim.model ∧ (∀ other ∈ history, other.sim.model = sim.model) ∧
      ∃ added, last.trace.entries.toList = sim.trace.entries.toList ++ added ∧
        ∀ entry ∈ added, Tells speaker entry := by
  induction leads with
  | nil => exact ⟨h, rfl, by simp, [], (List.append_nil _).symm, by simp⟩
  | @cons sim last event history _ tail ih =>
    obtain ⟨hfirst, hrest⟩ := List.forall_mem_cons.1 calm
    have hstill : Moment.Still speaker ⟨sim, event⟩ := hfirst.resolve_left fun hlive => by
      rw [show sim.halted = false from hlive.1] at h
      cases h
    obtain ⟨hhalted, hmodel, told, hentries, htold⟩ := still_effect hstill
    obtain ⟨hlast, hlast_model, hmodels, added, hadded, htells⟩ := ih hrest (hhalted.trans h)
    refine ⟨hlast, hlast_model.trans hmodel, ?_, told ++ added, ?_, ?_⟩
    · exact List.forall_mem_cons.2 ⟨rfl, fun other hmem => (hmodels other hmem).trans hmodel⟩
    · rw [hadded, hentries, List.append_assoc]
    · exact List.forall_mem_append.2 ⟨htold, htells⟩

/-- An event of a live run adds no fatal entry, or it adds one, halts the run and changes nothing
else. -/
theorem live_effect {event : Event} (h : Moment.Live ⟨sim, event⟩) :
    (event.effect sim).halted = false ∧ (event.effect sim).trace.fatals = sim.trace.fatals ∨
      (event.effect sim).halted = true ∧ (event.effect sim).model = sim.model ∧
        ∃ entry, entry.isFatal = true ∧ Moment.Records ⟨sim, event⟩ entry := by
  obtain ⟨hlive, hjustified⟩ := h
  have hlive : sim.halted = false := hlive
  have hhalt (fault : Fault) (hfault : fault.isFatal = true) :
      ∃ entry, entry.isFatal = true ∧
        (sim.halt fault).trace.entries.toList = sim.trace.entries.toList ++ [entry] :=
    ⟨⟨sim.trace.entries.size, sim.model.name, .log, none, none, some fault⟩, hfault,
      Trace.entries_push ..⟩
  cases event with
  | transmit index value =>
    refine .inl ?_
    unfold Event.effect
    dsimp only
    split <;> exact ⟨hlive, rfl⟩
  | land port value =>
    refine .inl ⟨(halted_land ..).trans hlive, ?_⟩
    unfold Event.effect land
    dsimp only
    split <;> exact Trace.fatals_record ..
  | record element kind input output => exact .inl ⟨hlive, Trace.fatals_record ..⟩
  | resume => exact .inl ⟨rfl, rfl⟩
  | halt fault => exact .inr ⟨rfl, rfl, hhalt fault hjustified⟩
  | fail element kind input fault =>
    cases hfault : fault.isFatal with
    | true =>
      have heffect : (Event.fail element kind input fault).effect sim = sim.halt fault := if_pos hfault
      simp only [Moment.Records, heffect]
      exact .inr ⟨rfl, rfl, hhalt fault hfault⟩
    | false =>
      have heffect : (Event.fail element kind input fault).effect sim =
          { sim with trace := sim.trace.recordFault element kind input fault } :=
        if_neg (by simp [hfault])
      rw [heffect]
      exact .inl ⟨hlive, Trace.fatals_recordFault _ _ _ _ hfault⟩
  | _ => exact .inl ⟨hlive, rfl⟩

end

/-- A history that halts at most once, and in which nothing happens afterwards but that results of
the given protocol are put on record. -/
inductive HaltsOnce (speaker : Option Protocol) (sim : Simulation) (history : List Moment)
    (last : Simulation) : Prop
  | running (live : last.halted = false) (lived : ∀ moment ∈ history, moment.sim.halted = false)
      (fatals_eq : last.trace.fatals = sim.trace.fatals)
  | stopped {before later : List Moment} {moment : Moment} {entry : Trace.Entry}
      (split : history = before ++ moment :: later) (records : moment.Records entry)
      (halted : last.halted = true) (fatals_eq : last.trace.fatals = sim.trace.fatals ++ [entry])
      (frozen : Frozen speaker moment later last)

namespace HaltsOnce

variable {speaker : Option Protocol} {sim last : Simulation} {history : List Moment} {event : Event}

/-- An event that does not halt the run leaves it to what follows. -/
theorem cons (h : sim.halted = false)
    (hfatals : (event.effect sim).trace.fatals = sim.trace.fatals)
    (tail : HaltsOnce speaker (event.effect sim) history last) :
    HaltsOnce speaker sim (⟨sim, event⟩ :: history) last := by
  cases tail with
  | running live lived fatals_eq =>
    exact .running live (List.forall_mem_cons.2 ⟨h, lived⟩) (fatals_eq.trans hfatals)
  | @stopped before later moment entry split records halted fatals_eq frozen =>
    rw [hfatals] at fatals_eq
    exact @stopped _ _ _ _ (⟨sim, event⟩ :: before) later moment entry (by rw [split]; rfl) records
      halted fatals_eq frozen

/-- An event that halts the run freezes it. -/
theorem of_halt {admits : Simulation → Event → Prop} {entry : Trace.Entry}
    (hhalted : (event.effect sim).halted = true) (hmodel : (event.effect sim).model = sim.model)
    (hfatal : entry.isFatal = true) (hrecords : Moment.Records ⟨sim, event⟩ entry)
    (tail : Leads admits (event.effect sim) history last) (calm : Calm speaker history) :
    HaltsOnce speaker sim (⟨sim, event⟩ :: history) last := by
  obtain ⟨hlast, hlast_model, hmodels, added, hadded, htells⟩ := tail.still calm hhalted
  have htold : added.filter Trace.Entry.isFatal = [] :=
    List.filter_eq_nil_iff.2 fun other hmem => by simp [(htells other hmem).not_fatal]
  have hfatals : last.trace.fatals = sim.trace.fatals ++ [entry] := by
    unfold Moment.Records at hrecords
    unfold Trace.fatals
    rw [hadded, hrecords, List.filter_append, List.filter_append, htold]
    simp [hfatal]
  exact @stopped _ _ _ _ [] history ⟨sim, event⟩ entry rfl hrecords hlast hfatals
    ⟨hlast_model.trans hmodel, fun other hmem => (hmodels other hmem).trans hmodel,
      added, hadded, htells⟩

theorem of_leads {admits : Simulation → Event → Prop} (leads : Leads admits sim history last)
    (calm : Calm speaker history) (h : sim.halted = false) : HaltsOnce speaker sim history last := by
  induction leads with
  | nil => exact .running h (by simp) rfl
  | @cons sim last event history _ tail ih =>
    obtain ⟨hfirst, hrest⟩ := List.forall_mem_cons.1 calm
    rcases hfirst with hlive | hstill
    · rcases live_effect hlive with ⟨hgoing, hfatals⟩ | ⟨hhalted, hmodel, entry, hfatal, hrecords⟩
      · exact .cons h hfatals (ih hrest hgoing)
      · exact .of_halt hhalted hmodel hfatal hrecords tail hrest
    · obtain ⟨hhalted, _, told, hentries, htold⟩ := still_effect hstill
      have hnone : told.filter Trace.Entry.isFatal = [] :=
        List.filter_eq_nil_iff.2 fun other hmem => by simp [(htold other hmem).not_fatal]
      refine .cons h ?_ (ih hrest (hhalted.trans h))
      unfold Trace.fatals
      rw [hentries, List.filter_append, hnone, List.append_nil]

end HaltsOnce

/-- If a value from outside does not halt the run in the end, then everything that it sets off happens
in a live run. -/
theorem resumed_lived {sim : Simulation} {qualified : String} {value : Value}
    (h : (sim.sendToPort qualified value).2.halted = false) :
    ∀ moment ∈ (sim.sendToPortHistory qualified value).tail, moment.sim.halted = false := by
  have honce : HaltsOnce none { sim with halted := false }
      (sim.sendToPortHistory qualified value).tail (sim.sendToPort qualified value).2 :=
    .of_leads (sim.resumed_driven qualified value).leads (sim.calm_resumed qualified value) rfl
  cases honce with
  | running _ lived => exact lived
  | stopped _ _ halted =>
    rw [h] at halted
    cases halted

end Simulation
end Archflow
