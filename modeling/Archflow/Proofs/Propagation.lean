import Archflow.Proofs.Freeze
import Archflow.Proofs.Idle
import Archflow.Proofs.Ports

/-!
Propagation over the scheduled links. Whatever gives a value to a port that only sends is followed
by transmissions of the value over all links that leave the port, except that a host may put a value
on such a port during the run. So a run that has propagated without a halt has sent the value of
every such port over its scheduled links, unless the host has put it there after the last
transmission (`propagated_current`); a link that has carried a value is not served again.
-/
namespace Archflow.Simulation

/-! What happens to one link. -/

def held (sim : Simulation) (ref : PortRef) : Option Value := (sim.model.port? ref).bind Port.value

def Untransmitted (index : Nat) (history : List Moment) : Prop :=
  ∀ moment ∈ history, ∀ value, moment.event ≠ .transmit index value

def Placed (source : PortRef) (value : Value) (history : List Moment) : Prop :=
  ∃ moment ∈ history, moment.event = .place source value

/-- The value was the last one to be transmitted over the link; what follows is given. -/
def LastSent (index : Nat) (sent : Value) (history later : List Moment) : Prop :=
  ∃ earlier sim, history = earlier ++ ⟨sim, .transmit index sent⟩ :: later ∧ Untransmitted index later

/-- What a history does to a link and the port that it leaves: nothing, or the port holds what a
host has put there, or something has been transmitted, and the port holds what was transmitted last
or what a host has put there afterwards. -/
inductive Fate (index : Nat) (source : PortRef) (sim : Simulation) (history : List Moment)
    (last : Simulation) : Prop
  | kept (unsent : Untransmitted index history) (same : last.held source = sim.held source)
  | placed {value : Value} (unsent : Untransmitted index history)
      (holds : last.held source = some value) (put : Placed source value history)
  | carried {sent : Value} {later : List Moment} (latest : LastSent index sent history later)
      (current : last.held source = some sent ∨
        ∃ value, last.held source = some value ∧ Placed source value later)

section
variable {index : Nat} {source : PortRef} {value : Value} {sim mid last : Simulation}
  {history later : List Moment}

theorem Untransmitted.append (first : Untransmitted index history)
    (second : Untransmitted index later) : Untransmitted index (history ++ later) :=
  List.forall_mem_append.2 ⟨first, second⟩

theorem Placed.append_left (h : Placed source value history) (later : List Moment) :
    Placed source value (history ++ later) := by
  obtain ⟨moment, hmem, hevent⟩ := h
  exact ⟨moment, List.mem_append_left _ hmem, hevent⟩

theorem Placed.append_right (h : Placed source value later) (history : List Moment) :
    Placed source value (history ++ later) := by
  obtain ⟨moment, hmem, hevent⟩ := h
  exact ⟨moment, List.mem_append_right _ hmem, hevent⟩

theorem LastSent.append_left {sent : Value} {after : List Moment}
    (h : LastSent index sent history after) (unsent : Untransmitted index later) :
    LastSent index sent (history ++ later) (after ++ later) := by
  obtain ⟨earlier, start, rfl, huntil⟩ := h
  exact ⟨earlier, start, by simp, huntil.append unsent⟩

theorem LastSent.append_right {sent : Value} {after : List Moment}
    (h : LastSent index sent later after) (history : List Moment) :
    LastSent index sent (history ++ later) after := by
  obtain ⟨earlier, start, rfl, huntil⟩ := h
  exact ⟨history ++ earlier, start, by simp, huntil⟩

/-- If anything is transmitted over the link, there is a last time. -/
theorem exists_lastSent (h : ¬ Untransmitted index history) :
    ∃ sent later, LastSent index sent history later := by
  induction history with
  | nil =>
    refine absurd ?_ h
    intro moment hmem
    cases hmem
  | cons first rest ih =>
    by_cases hrest : Untransmitted index rest
    · by_cases hfirst : ∃ sent, first.event = .transmit index sent
      · obtain ⟨sent, hsent⟩ := hfirst
        exact ⟨sent, rest, [], first.sim, by rw [← hsent]; rfl, hrest⟩
      · refine absurd (List.forall_mem_cons.2 ⟨fun value hevent => ?_, hrest⟩) h
        exact hfirst ⟨value, hevent⟩
    · obtain ⟨sent, later, hlast⟩ := ih hrest
      exact ⟨sent, later, hlast.append_right [first]⟩

theorem Fate.append (first : Fate index source sim history mid)
    (second : Fate index source mid later last) : Fate index source sim (history ++ later) last := by
  cases second with
  | kept unsent same =>
    cases first with
    | kept unsent' same' => exact .kept (unsent'.append unsent) (same.trans same')
    | placed unsent' holds put =>
      exact .placed (unsent'.append unsent) (same.trans holds) (put.append_left later)
    | carried latest current =>
      refine .carried (latest.append_left unsent) ?_
      rw [same]
      refine current.imp_right ?_
      rintro ⟨value, hvalue, hput⟩
      exact ⟨value, hvalue, hput.append_left later⟩
  | placed unsent holds put =>
    cases first with
    | kept unsent' _ => exact .placed (unsent'.append unsent) holds (put.append_right history)
    | placed unsent' _ _ => exact .placed (unsent'.append unsent) holds (put.append_right history)
    | carried latest _ =>
      exact .carried (latest.append_left unsent) (.inr ⟨_, holds, put.append_right _⟩)
  | carried latest current => exact .carried (latest.append_right history) current

end

/-! Ports that only send. -/

def OnlySends (sim : Simulation) (ref : PortRef) : Prop :=
  (sim.model.port? ref).map Port.direction = some .output

section
variable {index : Nat} {source : PortRef} {value : Value} {sim last : Simulation}
  {history : List Moment}

theorem Alike.onlySends (h : Alike sim last) (hsource : OnlySends sim source) :
    OnlySends last source :=
  (h.direction_eq source).trans hsource

/-- Nothing but a send or a host gives a value to a port that only sends. -/
theorem held_effect {event : Event} (hsource : OnlySends sim source) (hchecked : event.Checked sim)
    (hwrite : ∀ value, event ≠ .write source value) (hplace : ∀ value, event ≠ .place source value) :
    (event.effect sim).held source = sim.held source := by
  unfold held
  rw [port?_effect]
  cases hfilled : event.filled? with
  | none => rfl
  | some filled =>
    obtain ⟨target, value⟩ := filled
    by_cases htarget : source = target
    · subst htarget
      cases event with
      | write port written =>
        cases hfilled
        exact absurd rfl (hwrite _)
      | place port placed =>
        cases hfilled
        exact absurd rfl (hplace _)
      | land port landed =>
        cases hfilled
        obtain ⟨found, hfound, hreceive⟩ := Model.port?_of_checkReceive hchecked
        have hdirection : found.direction = .output := by simpa [OnlySends, hfound] using hsource
        simp [hdirection, Direction.canReceive] at hreceive
      | _ => cases hfilled
    · simp [htarget]

theorem held_of_leads (leads : Leads Event.Checked sim history last) (hsource : OnlySends sim source)
    (h : ∀ moment ∈ history, ∀ value, moment.event ≠ .write source value ∧
      moment.event ≠ .place source value) : last.held source = sim.held source := by
  induction leads with
  | nil => rfl
  | cons admitted _ ih =>
    obtain ⟨hfirst, hrest⟩ := List.forall_mem_cons.1 h
    rw [ih ((Alike.effect _ _).onlySends hsource) hrest]
    exact held_effect hsource admitted (fun value => (hfirst value).1) fun value => (hfirst value).2

theorem Event.not_filling_of_isCarriage {event : Event} (h : event.isCarriage = true)
    (source : PortRef) (index : Nat) (value : Value) :
    (event ≠ .write source value ∧ event ≠ .place source value) ∧ event ≠ .transmit index value := by
  refine ⟨⟨?_, ?_⟩, ?_⟩ <;> rintro rfl <;> cases h

/-! Sends. -/

theorem port?_foldl_setPort (chain : List PortRef) (model : Model) (ref : PortRef) :
    (chain.foldl (fun model port => model.setPort port value) model).port? ref =
      if ref ∈ chain then (model.port? ref).map (·.holding value) else model.port? ref := by
  induction chain generalizing model with
  | nil => simp
  | cons port rest ih =>
    rw [List.foldl_cons, ih, Model.port?_setPort]
    by_cases hport : ref = port
    · subst hport
      by_cases hrest : ref ∈ rest
      · simp [hrest, Function.comp_def, Port.holding]
      · simp [hrest]
    · simp [hport]

theorem transmitAll_transmits {indices : List Nat}
    (hlive : (transmitAll value indices sim).halted = false) (hmem : index ∈ indices) {link : Link}
    (hlink : sim.wiring.links[index]? = some link) :
    ¬ Untransmitted index (transmitAllHistory value indices sim) := by
  induction indices generalizing sim with
  | nil => cases hmem
  | cons first rest ih =>
    rw [transmitAll] at hlive
    rw [transmitAllHistory]
    cases hhalted : sim.halted with
    | true => simp [hhalted] at hlive
    | false =>
      simp only [hhalted, Bool.false_eq_true, if_false] at hlive ⊢
      intro hunsent
      rcases List.mem_cons.1 hmem with rfl | hrest
      · obtain ⟨later, hhistory, _⟩ := transmitHistory_cons hlink value
        rw [hhistory] at hunsent
        exact hunsent _ List.mem_cons_self value rfl
      · refine ih hlive hrest ((transmit_leads sim first value).alike.1.links ▸ hlink) ?_
        exact fun moment hmoment => hunsent moment (List.mem_append_right _ hmoment)

/-- The events of a send along a chain, as far as links and ports that send are concerned. -/
theorem event_of_sendAlongHistory {chain : List PortRef} {moment : Moment}
    (h : moment ∈ sim.sendAlongHistory chain value) :
    (∃ port ∈ chain, moment.event = .write port value) ∨
      (∃ index ∈ chain.flatMap sim.wiring.linksFrom, moment.event = .transmit index value) ∨
      moment.event.isCarriage = true :=
  (List.mem_append.1 h).imp event_of_writeHistory event_of_transmitAllHistory

theorem held_sendAlong (hsource : OnlySends sim source) {chain : List PortRef}
    (hchecked : ∀ port ∈ chain, sim.model.checkSend port value = .ok ()) :
    (sim.sendAlong chain value).held source =
      if source ∈ chain then some value else sim.held source := by
  let model := chain.foldl (fun model port => model.setPort port value) sim.model
  have hwrites : Course (Event.Plain False) sim (writeHistory value chain sim) { sim with model } :=
    writes_course hchecked False.elim
  have htransmits : Course (Event.Plain False) { sim with model } _ _ :=
    transmitAll_course value (chain.flatMap sim.wiring.linksFrom) { sim with model }
  -- The transmissions change no port that only sends.
  have hheld : (sim.sendAlong chain value).held source =
      ({ sim with model } : Simulation).held source := by
    refine held_of_leads htransmits.checked (hwrites.checked.alike.1.onlySends hsource) ?_
    intro moment hmem other
    rcases event_of_transmitAllHistory hmem with ⟨_, _, hevent⟩ | hcarriage
    · rw [hevent]
      exact ⟨nofun, nofun⟩
    · exact (Event.not_filling_of_isCarriage hcarriage source 0 other).1
  obtain ⟨port, hport, _⟩ := Option.map_eq_some_iff.1 hsource
  rw [hheld]
  by_cases hmem : source ∈ chain
  · simp [held, model, port?_foldl_setPort, hmem, hport]
  · simp [held, model, port?_foldl_setPort, hmem]

/-- A send along a chain that a port belongs to is transmitted over all links that leave the port. -/
theorem fate_sendAlong {model : Model} {config : Config} (halike : Alike (.new model config) sim)
    {link : Link} (hlink : sim.wiring.links[index]? = some link)
    (hsource : OnlySends sim link.source) {chain : List PortRef}
    (hchecked : ∀ port ∈ chain, sim.model.checkSend port value = .ok ())
    (hlive : (sim.sendAlong chain value).halted = false) :
    Fate index link.source sim (sim.sendAlongHistory chain value) (sim.sendAlong chain value) := by
  have hheld := held_sendAlong hsource hchecked
  have hleaves : index ∈ chain.flatMap sim.wiring.linksFrom ↔ link.source ∈ chain := by
    simp only [List.mem_flatMap, halike.indexed _ index, hlink]
    simp
  by_cases hmem : link.source ∈ chain
  · have hsent : ¬ Untransmitted index (sim.sendAlongHistory chain value) := by
      intro hunsent
      have htransmits := @transmitAll_transmits index value
        { sim with model := chain.foldl (fun model port => model.setPort port value) sim.model } _
        hlive (hleaves.2 hmem) link hlink
      exact htransmits fun moment hmoment => hunsent moment (List.mem_append_right _ hmoment)
    obtain ⟨sent, later, earlier, start, hhistory, huntil⟩ := exists_lastSent hsent
    have hevent : (⟨start, .transmit index sent⟩ : Moment) ∈ sim.sendAlongHistory chain value := by
      rw [hhistory]
      simp
    have hvalue : sent = value := by
      rcases event_of_sendAlongHistory hevent with ⟨_, _, hwrite⟩ | ⟨_, _, htransmit⟩ | hcarriage
      · cases hwrite
      · cases htransmit
        rfl
      · cases hcarriage
    subst hvalue
    rw [if_pos hmem] at hheld
    exact .carried ⟨earlier, start, hhistory, huntil⟩ (.inl hheld)
  · rw [if_neg hmem] at hheld
    refine .kept ?_ hheld
    intro moment hmoment other hevent
    rcases event_of_sendAlongHistory hmoment with ⟨_, _, hwrite⟩ | ⟨_, hother, htransmit⟩ | hcarriage
    · rw [hevent] at hwrite
      cases hwrite
    · rw [hevent] at htransmit
      cases htransmit
      exact hmem (hleaves.1 hother)
    · rw [hevent] at hcarriage
      cases hcarriage

/-! Episodes. -/

theorem Fate.noted {event : Event} (hsource : OnlySends sim source) (hchecked : event.Checked sim)
    (hwrite : ∀ value, event ≠ .write source value) (hplace : ∀ value, event ≠ .place source value)
    (htransmit : ∀ value, event ≠ .transmit index value) :
    Fate index source sim [⟨sim, event⟩] (event.effect sim) := by
  refine .kept ?_ (held_effect hsource hchecked hwrite hplace)
  intro moment hmem
  rw [List.mem_singleton.1 hmem]
  exact htransmit

theorem Episode.fate {sources : Sources} {model : Model} {config : Config}
    (episode : Episode sources sim history last) (halike : Alike (.new model config) sim)
    {link : Link} (hlink : sim.wiring.links[index]? = some link)
    (hsource : OnlySends sim link.source) (hlive : last.halted = false) :
    Fate index link.source sim history last := by
  have hleads := episode.leads
  cases episode with
  | @note event quiet =>
    refine .noted hsource (Event.isQuiet.checked quiet sim) ?_ ?_ ?_ <;>
      · rintro value rfl
        cases quiet
  | seed => exact @Fate.noted _ _ sim .seed hsource trivial nofun nofun nofun
  | @place port value resolved injected surface resolves closed fits =>
    by_cases hport : port = link.source
    · subst hport
      have hholds : ((Event.place link.source value).effect sim).held link.source = some value := by
        simp [held, port?_effect, Event.filled?, Model.resolve_eq_ok_iff.1 resolves]
      refine .placed ?_ hholds ⟨_, List.mem_singleton.2 rfl, rfl⟩
      intro moment hmem other
      rw [List.mem_singleton.1 hmem]
      exact nofun
    · refine .noted hsource ⟨resolved, resolves, fits⟩ nofun ?_ nofun
      intro other hevent
      cases hevent
      exact hport rfl
  | @arrive port value targets given surface reaches =>
    refine .kept ?_ (held_of_leads hleads hsource ?_)
    · intro moment hmem other
      obtain ⟨_, _, hevent⟩ := event_of_landHistory hmem
      rw [hevent]
      exact nofun
    · intro moment hmem other
      obtain ⟨_, _, hevent⟩ := event_of_landHistory hmem
      rw [hevent]
      exact ⟨nofun, nofun⟩
  | @propagate other found value surface live linked holds =>
    have hheld : (sim.transmit other value).held link.source = sim.held link.source := by
      refine held_of_leads hleads hsource ?_
      intro moment hmem written
      rcases event_of_transmitHistory hmem with hevent | hcarriage
      · rw [hevent]
        exact ⟨nofun, nofun⟩
      · exact (Event.not_filling_of_isCarriage hcarriage link.source index written).1
    by_cases hother : other = index
    · subst hother
      cases linked.symm.trans hlink
      obtain ⟨later, hhistory, hlater⟩ := transmitHistory_cons hlink value
      refine .carried ⟨[], sim, hhistory, ?_⟩ (.inl (hheld.trans holds))
      intro moment hmem sent
      exact (Event.not_filling_of_isCarriage (hlater moment hmem) link.source other sent).2
    · refine .kept ?_ hheld
      intro moment hmem sent
      rcases event_of_transmitHistory hmem with hevent | hcarriage
      · rw [hevent]
        intro hsame
        cases hsame
        exact hother rfl
      · exact (Event.not_filling_of_isCarriage hcarriage link.source index sent).2
  | @send port value chain given surface passes =>
    exact fate_sendAlong halike hlink hsource (Model.checked_of_sendChain passes) hlive
  | @fire wakeup name key firing exe constraint value chain ran stored registered deep planned found
      constrained computed met keyed passes ran_eq stored_eq =>
    have hran : Alike sim ran := by
      rw [ran_eq]
      exact .effect (.record firing.executable .exec (some (exe.callRecord firing.args)) value) sim
    have hstored : Alike sim stored := by
      rw [stored_eq]
      exact hran.trans (.effect (.store firing.component key value) ran)
    have hrecorded : Fate index link.source sim
        [⟨sim, .record firing.executable .exec (some (exe.callRecord firing.args)) value⟩] ran := by
      rw [ran_eq]
      exact .noted hsource trivial nofun nofun nofun
    have hentered : Fate index link.source ran [⟨ran, .store firing.component key value⟩] stored := by
      rw [stored_eq]
      exact .noted (hran.onlySends hsource) trivial nofun nofun nofun
    have hchecked : ∀ port ∈ chain, stored.model.checkSend port value = .ok () := by
      intro port hmem
      rw [Model.checkSend_congr hstored.outline]
      exact checked_of_resultChain passes port hmem
    have hsent := fate_sendAlong (halike.trans hstored) (hstored.links ▸ hlink)
      (hstored.onlySends hsource) hchecked hlive
    exact hrecorded.append (hentered.append hsent)

/-- What happens to a link in episodes of a run that is live all the time. -/
theorem Episodes.fate {sources : Sources} {model : Model} {config : Config}
    (episodes : Episodes sources sim history last) (halike : Alike (.new model config) sim)
    {link : Link} (hlink : sim.wiring.links[index]? = some link)
    (hsource : OnlySends sim link.source) (lived : ∀ moment ∈ history, moment.sim.halted = false)
    (hlive : last.halted = false) : Fate index link.source sim history last := by
  induction episodes with
  | nil =>
    refine .kept ?_ rfl
    intro moment hmem
    cases hmem
  | cons head tail ih =>
    obtain ⟨hfirst, hrest⟩ := List.forall_mem_append.1 lived
    have hmid := tail.leads.live_start hrest hlive
    have halike_mid := head.leads.alike.1
    have htail := ih (halike.trans halike_mid) (halike_mid.links ▸ hlink)
      (halike_mid.onlySends hsource) hrest hlive
    exact (head.fate halike hlink hsource hmid).append htail

theorem Episode.injects {sources : Sources} (episode : Episode sources sim history last)
    (hput : Placed source value history) : sources.Injects source value := by
  obtain ⟨moment, hmem, hevent⟩ := hput
  have hsend {sim : Simulation} {chain : List PortRef} {sent : Value}
      (hmem : moment ∈ sim.sendAlongHistory chain sent) : sources.Injects source value := by
    rcases event_of_sendAlongHistory hmem with ⟨_, _, hother⟩ | ⟨_, _, hother⟩ | hcarriage
    · cases hother.symm.trans hevent
    · cases hother.symm.trans hevent
    · rw [hevent] at hcarriage
      cases hcarriage
  cases episode with
  | note quiet =>
    rw [List.mem_singleton.1 hmem] at hevent
    cases hevent
    cases quiet
  | seed =>
    rw [List.mem_singleton.1 hmem] at hevent
    cases hevent
  | place injected surface resolves closed fits =>
    rw [List.mem_singleton.1 hmem] at hevent
    cases hevent
    exact injected
  | arrive given surface reaches =>
    obtain ⟨_, _, hother⟩ := event_of_landHistory hmem
    cases hother.symm.trans hevent
  | propagate surface live linked holds =>
    rcases event_of_transmitHistory hmem with hother | hcarriage
    · cases hother.symm.trans hevent
    · rw [hevent] at hcarriage
      cases hcarriage
  | send given surface passes => exact hsend hmem
  | fire =>
    rcases List.mem_cons.1 hmem with rfl | hmem
    · cases hevent
    · rcases List.mem_cons.1 hmem with rfl | hmem
      · cases hevent
      · exact hsend hmem

theorem Episodes.injects {sources : Sources} (episodes : Episodes sources sim history last)
    (hput : Placed source value history) : sources.Injects source value := by
  induction episodes with
  | nil =>
    obtain ⟨_, hmem, _⟩ := hput
    cases hmem
  | cons head _ ih =>
    obtain ⟨moment, hmem, hevent⟩ := hput
    rcases List.mem_append.1 hmem with hfirst | hrest
    · exact head.injects ⟨moment, hfirst, hevent⟩
    · exact ih ⟨moment, hrest, hevent⟩

end

/-! The links that have carried a value. -/

section
variable {index : Nat} {link : Link} {sim last : Simulation} {history : List Moment}

theorem mem_transmitted_effect {event : Event} (hlink : sim.wiring.links[index]? = some link) :
    index ∈ (event.effect sim).transmitted ↔
      index ∈ sim.transmitted ∨ ∃ value, event = .transmit index value := by
  cases event with
  | transmit other value =>
    by_cases hother : other = index
    · subst hother
      simp only [Event.effect, hlink]
      by_cases hmem : other ∈ sim.transmitted
      · simp [putChannel, hmem]
      · simp [putChannel, hmem]
    · have hsame : index ∈ ((Event.transmit other value).effect sim).transmitted ↔
          index ∈ sim.transmitted := by
        unfold Event.effect
        dsimp only
        split
        · rfl
        · dsimp only [putChannel]
          split
          · rfl
          · simp [Ne.symm hother]
      simp [hsame, hother]
  | land port value =>
    unfold Event.effect land
    dsimp only
    split <;> simp [record]
  | fail element kind input fault =>
    unfold Event.effect fail
    dsimp only
    split <;> simp [halt]
  | _ => simp [Event.effect, putChannel, record, halt, seedInitialValues]

theorem mem_transmitted_of_leads {admits : Simulation → Event → Prop}
    (leads : Leads admits sim history last) (hlink : sim.wiring.links[index]? = some link) :
    index ∈ last.transmitted ↔ index ∈ sim.transmitted ∨ ¬ Untransmitted index history := by
  induction leads with
  | nil => simp [Untransmitted]
  | @cons sim last event history _ _ ih =>
    have hcons : ¬ Untransmitted index (⟨sim, event⟩ :: history) ↔
        (∃ value, event = .transmit index value) ∨ ¬ Untransmitted index history := by
      unfold Untransmitted
      rw [List.forall_mem_cons, not_and_or]
      simp
    rw [ih ((Alike.effect event sim).links ▸ hlink), mem_transmitted_effect hlink, hcons, or_assoc]

/-- The link has carried a value, or its source has none to be carried. -/
def Settled (index : Nat) (link : Link) (sim : Simulation) : Prop :=
  sim.held link.source = none ∨ index ∈ sim.transmitted

/-- A link stays settled as long as no host puts values on ports. -/
theorem Settled.episodes {model : Model} {config : Config} (h : Settled index link sim)
    (episodes : Episodes {} sim history last) (halike : Alike (.new model config) sim)
    (hlink : sim.wiring.links[index]? = some link) (hsource : OnlySends sim link.source)
    (lived : ∀ moment ∈ history, moment.sim.halted = false) (hlive : last.halted = false) :
    Settled index link last := by
  have htransmitted := mem_transmitted_of_leads episodes.leads hlink
  cases episodes.fate halike hlink hsource lived hlive with
  | kept unsent same =>
    rcases h with hnone | hmem
    · exact .inl (same.trans hnone)
    · exact .inr (htransmitted.2 (.inl hmem))
  | placed unsent holds put =>
    obtain ⟨_, hlisted, _⟩ := episodes.injects put
    cases hlisted
  | carried latest current =>
    obtain ⟨earlier, start, rfl, _⟩ := latest
    refine .inr (htransmitted.2 (.inr ?_))
    intro hunsent
    exact hunsent _ (List.mem_append_right _ List.mem_cons_self) _ rfl

theorem settled_propagate (hlive : sim.halted = false)
    (hlink : sim.wiring.links[index]? = some link) : Settled index link (sim.propagate index) := by
  have htransmitted := mem_transmitted_of_leads (sim.propagate_driven index hlive).leads hlink
  unfold propagateHistory at htransmitted
  cases hcontains : sim.transmitted.contains index with
  | true =>
    have hsame : sim.propagate index = sim := by simp only [propagate, hcontains, if_true]
    rw [hsame]
    exact .inr (List.contains_iff_mem.1 hcontains)
  | false =>
    simp only [hcontains, Bool.false_eq_true, if_false, hlink, Option.bind_some] at htransmitted
    cases hheld : (sim.model.port? link.source).bind Port.value with
    | none =>
      have hsame : sim.propagate index = sim := by
        simp only [propagate, hcontains, Bool.false_eq_true, if_false, hlink, Option.bind_some, hheld]
      rw [hsame]
      exact .inl hheld
    | some value =>
      simp only [hheld] at htransmitted
      refine .inr (htransmitted.2 (.inr ?_))
      intro hunsent
      obtain ⟨later, hhistory, _⟩ := transmitHistory_cons hlink value
      rw [hhistory] at hunsent
      exact hunsent _ (List.mem_append_left _ List.mem_cons_self) value rfl

/-- Once links have been served one after the other without a halt, all of them are settled. -/
theorem settled_propagateEach {model : Model} {config : Config} {indices : List Nat}
    {sim : Simulation} (halike : Alike (.new model config) sim) (hsurface : sim.depth = 0)
    (lived : ∀ moment ∈ foldHistory (fun sim index => sim.unlessHalted (·.propagate index))
      (fun sim index => sim.unlessHaltedHistory (·.propagateHistory index)) indices sim,
      moment.sim.halted = false)
    (hlive : (indices.foldl (fun sim index => sim.unlessHalted (·.propagate index)) sim).halted = false)
    (hmem : index ∈ indices) (hlink : sim.wiring.links[index]? = some link)
    (hsource : OnlySends sim link.source) :
    Settled index link (indices.foldl (fun sim index => sim.unlessHalted (·.propagate index)) sim) := by
  induction indices generalizing sim with
  | nil => cases hmem
  | cons first rest ih =>
    obtain ⟨hfirst, hrest⟩ := List.forall_mem_append.1 lived
    have hdriven : Driven sim (sim.unlessHaltedHistory (·.propagateHistory first))
        (sim.unlessHalted (·.propagate first)) := unlessHalted_driven (sim.propagate_driven first)
    have halike_mid := hdriven.leads.alike.1
    have hdepth := hdriven.depth_eq.trans hsurface
    have hepisodes := @propagateEach_episodes {} _ hdepth rest
    have hmid := hepisodes.leads.live_start hrest hlive
    rcases List.mem_cons.1 hmem with rfl | hmem
    · have hstart := hdriven.leads.live_start hfirst hmid
      have hstep : sim.unlessHalted (·.propagate index) = sim.propagate index :=
        if_neg (by simp [hstart])
      have hsettled : Settled index link (sim.unlessHalted (·.propagate index)) := by
        rw [hstep]
        exact settled_propagate hstart hlink
      exact hsettled.episodes hepisodes (halike.trans halike_mid) (halike_mid.links ▸ hlink)
        (halike_mid.onlySends hsource) hrest hlive
    · exact ih (halike.trans halike_mid) hdepth hrest hlive hmem (halike_mid.links ▸ hlink)
        (halike_mid.onlySends hsource)

end

section
variable {model : Model} {config : Config} {ports : List (String × Value)}

/-- A run that has propagated without a halt has served all scheduled links. -/
theorem settled_propagated {index : Nat} {link : Link}
    (hlive : (propagated model config ports).halted = false)
    (hmem : index ∈ (Wiring.ofModel model).schedule)
    (hlink : (Wiring.ofModel model).links[index]? = some link)
    (hsource : OnlySends (.new model config) link.source) :
    Settled index link (propagated model config ports) := by
  have lived := ((propagated_ending model config ports).lived hlive).1
  have hseeded : (seeded model config ports).halted = false := by
    by_contra hhalted
    have hsame : propagated model config ports = seeded model config ports :=
      if_pos (by simpa using hhalted)
    rw [hsame] at hlive
    exact hhalted hlive
  have hstep : propagated model config ports = (seeded model config ports).propagateFlows :=
    if_neg (by simp [hseeded])
  have hhistory : propagatedHistory model config ports =
      seededHistory model config ports ++ (seeded model config ports).propagateFlowsHistory :=
    congrArg (seededHistory model config ports ++ ·) (if_neg (by simp [hseeded]))
  have hdriven := seeded_driven model config ports
  have halike := hdriven.leads.alike.1
  rw [hstep] at hlive ⊢
  rw [hhistory] at lived
  exact settled_propagateEach halike hdriven.depth_eq (List.forall_mem_append.1 lived).2 hlive
    (halike.schedule ▸ hmem) (halike.links ▸ hlink) (halike.onlySends hsource)

end

/-- Propagation leaves sources current. When a run has propagated values without a halt, then over
every scheduled link whose source only sends and holds a value something has been transmitted, and
the last transmission carried that value, unless an input of the run has put it on the source
afterwards. -/
theorem propagated_current (model : Model) (config : Config) (ports : List (String × Value))
    (hlive : (propagated model config ports).halted = false) :
    let sim := propagated model config ports
    let history := propagatedHistory model config ports
    Leads Event.Checked (.new model config) history sim ∧
      ∀ index ∈ sim.wiring.schedule, ∀ link, sim.wiring.links[index]? = some link →
        ∀ port value, sim.model.port? link.source = some port → port.direction = .output →
          port.value = some value →
            ∃ sent later, LastSent index sent history later ∧
              (sent = value ∨ Placed link.source value later ∧
                Sources.Lists ports link.source value) := by
  intro sim history
  have hepisodes := @propagated_episodes { injected := ports } model config ports fun _ h => h
  have halike := hepisodes.leads.alike.1
  have lived := ((propagated_ending model config ports).lived hlive).1
  refine ⟨hepisodes.leads, fun index hmem link hlink port value hport hdirection hvalue => ?_⟩
  rw [halike.schedule] at hmem
  rw [halike.links] at hlink
  have hsource : OnlySends (.new model config) link.source := by
    rw [OnlySends, ← halike.direction_eq, hport, Option.map_some, hdirection]
  have hheld : sim.held link.source = some value := by
    rw [held, hport, Option.bind_some, hvalue]
  have hsent : ¬ Untransmitted index history := by
    rcases settled_propagated hlive hmem hlink hsource with hnone | htransmitted
    · cases hnone.symm.trans hheld
    · rcases (mem_transmitted_of_leads hepisodes.leads hlink).1 htransmitted with hstart | hsent
      · cases hstart
      · exact hsent
  cases hepisodes.fate (.refl _) hlink hsource lived hlive with
  | kept unsent _ => exact absurd unsent hsent
  | placed unsent _ _ => exact absurd unsent hsent
  | @carried sent later latest current =>
    refine ⟨sent, later, latest, ?_⟩
    rcases current with hcurrent | ⟨other, hother, hput⟩
    · exact .inl (Option.some.inj (hcurrent.symm.trans hheld))
    · obtain rfl : other = value := Option.some.inj (hother.symm.trans hheld)
      obtain ⟨earlier, start, hhistory, _⟩ := latest
      refine .inr ⟨hput, hepisodes.injects ?_⟩
      change Placed link.source other history
      rw [show history = _ from hhistory]
      obtain ⟨moment, hmoment, hevent⟩ := hput
      exact ⟨moment, List.mem_append_right _ (List.mem_cons_of_mem _ hmoment), hevent⟩

end Archflow.Simulation

namespace Archflow

/-- A worker that copies what it receives to a port that leads to a sink. -/
def override : Model where
  name := "override"
  components := .ofList [
    ("worker", {
      name := "worker"
      ports := [⟨"in", .input, "worker", .boolean, none⟩, ⟨"out", .output, "worker", .boolean, none⟩]
      activities := ["work"] }),
    ("sink", {
      name := "sink"
      ports := [⟨"in", .input, "sink", .boolean, none⟩] })]
  activities := .ofList [("work", {
    name := "work"
    inputs := [⟨"in", .boolean, none⟩]
    outputs := [⟨"out", .boolean, none⟩]
    actions := [⟨"act", none⟩] })]
  executables := .ofList [("copy", {
    name := "copy"
    params := [⟨"in", .boolean, none⟩]
    returns := .boolean
    body := [.ret (.variable "in")] })]
  flows := [⟨⟨"worker", "out"⟩, ⟨"sink", "in"⟩, .boolean⟩]
  allocations := [.executable "copy" "act"]

/-- The second input takes the place of what the worker has sent on the first one. -/
def overridden : List (String × Value) := [("worker.in", .bool true), ("worker.out", .bool false)]

namespace Simulation

theorem propagated_current_override :
    (propagated override {} overridden).halted = false ∧
      ∃ sent later, LastSent 0 sent (propagatedHistory override {} overridden) later ∧
        (sent = .bool false ∨ Placed ⟨"worker", "out"⟩ (.bool false) later ∧
          Sources.Lists overridden ⟨"worker", "out"⟩ (.bool false)) := by
  have hlive : (propagated override {} overridden).halted = false := by decide +kernel
  have hmem : 0 ∈ (propagated override {} overridden).wiring.schedule := by decide +kernel
  have hlink : (propagated override {} overridden).wiring.links[0]? =
      some (.ofFlow ⟨⟨"worker", "out"⟩, ⟨"sink", "in"⟩, .boolean⟩ none) := by decide +kernel
  have hport : ((propagated override {} overridden).model.port? ⟨"worker", "out"⟩).map
      (fun port => (port.direction, port.value)) = some (.output, some (.bool false)) := by
    decide +kernel
  obtain ⟨port, hfound, hsame⟩ := Option.map_eq_some_iff.1 hport
  refine ⟨hlive, ?_⟩
  exact (propagated_current override {} overridden hlive).2 0 hmem _ hlink port (.bool false) hfound
    (congrArg Prod.fst hsame) (congrArg Prod.snd hsame)

def Event.sent? : Event → Option (Nat × Value)
  | .transmit index value => some (index, value)
  | _ => none

/-- The port that leads to the sink holds a value that was never sent. -/
theorem stale_override :
    (∃ session, Session.load override {} = .ok session) ∧
      (propagated override {} overridden).halted = false ∧
      0 ∈ (propagated override {} overridden).wiring.schedule ∧
      (propagated override {} overridden).wiring.links[0]? =
        some (.ofFlow ⟨⟨"worker", "out"⟩, ⟨"sink", "in"⟩, .boolean⟩ none) ∧
      ((propagated override {} overridden).model.port? ⟨"worker", "out"⟩).map
        (fun port => (port.direction, port.value)) = some (.output, some (.bool false)) ∧
      collect Event.sent? (propagatedHistory override {} overridden) = [(0, .bool true)] ∧
      ¬ ∃ later, LastSent 0 (.bool false) (propagatedHistory override {} overridden) later := by
  have hsent : collect Event.sent? (propagatedHistory override {} overridden) =
      [(0, .bool true)] := by decide +kernel
  refine ⟨⟨_, rfl⟩, by decide +kernel, by decide +kernel, by decide +kernel, by decide +kernel, hsent, ?_⟩
  rintro ⟨later, earlier, start, hhistory, _⟩
  rw [hhistory] at hsent
  have hmem : (0, Value.bool false) ∈ ([(0, .bool true)] : List (Nat × Value)) := by
    rw [← hsent]
    simp [Event.sent?]
  simp at hmem

end Simulation
end Archflow
