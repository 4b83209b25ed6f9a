import Archflow.Proofs.Episode
import Archflow.Proofs.Firing
import Archflow.Proofs.Typing
import Archflow.Proofs.Validity

/-!
Contracts of connectors and activities. A value that a link carries has gone through the transform
and the constraint of its connector and fits the link and every port it lands on; a result that an
activity enters or sends has been computed from inputs that were all present, under the constraint
of its action, and is of the declared type. Besides, only protocols and the host touch ports and
states. So every change in a run is warranted by what happened before it (`changes_warranted`).
-/
namespace Archflow

/-! What a check that passes says. -/

theorem SymbolTable.conforms_of_check {symbols : SymbolTable} {value : Value} {type : TypeRef}
    {slot : Slot} (h : symbols.check value type slot = .ok ()) :
    symbols.conforms value type = true := by
  unfold check at h
  split at h
  · next hconforms => exact hconforms
  · cases h

namespace Constraint

/-- A condition, if there is one, evaluates to true. -/
def Met (condition : Option Expr) (env : Env) : Prop :=
  ∀ expr, condition = some expr → expr.eval env = .ok (.bool true)

theorem met_of_requireIf {name : String} {condition : Option Expr} {env : Env}
    (h : requireIf name condition env = .ok ()) : Met condition env := by
  rintro expr rfl
  obtain ⟨outcome, heval, hrequired⟩ := exists_of_bind_ok h
  split at hrequired
  · next htrue => rw [heval, htrue]
  · cases hrequired

theorem met_of_check {constraint : Constraint} {env : Env} (h : constraint.check env = .ok ()) :
    Met constraint.precondition env ∧ Met constraint.postcondition env := by
  obtain ⟨_, hpre, hpost⟩ := exists_of_bind_ok h
  exact ⟨met_of_requireIf hpre, met_of_requireIf hpost⟩

end Constraint

theorem Executable.conforms_of_run {exe : Executable} {args : List Value} {symbols : SymbolTable}
    {value : Value} (h : exe.run args symbols = .ok (some value)) :
    symbols.conforms value exe.returns = true := by
  unfold run invoke at h
  cases hparams : exe.bindParams args (Env.new symbols).push with
  | error fault =>
    rw [hparams] at h
    cases h
  | ok inner =>
    simp only [hparams] at h
    generalize (Stmt.execAll inner exe.body).1 = outcome at h
    match outcome with
    | .error fault => cases h
    | .ok none => cases h
    | .ok (some returned) =>
      obtain ⟨_, hcheck, hreturned⟩ := exists_of_bind_ok h
      cases hreturned
      exact SymbolTable.conforms_of_check hcheck

/-! The contracts. -/

def Model.functionsOf (model : Model) (link : Link) : ConnectorFunctions :=
  (link.connector.bind (Realization.ofModel model).1.functionsOf?).getD {}

/-- The link makes the carried value of the raw one: the transform in force, if any, returns it, the
constraint in force, if any, is met, and it is of the type of the link. -/
structure Model.Carries (model : Model) (link : Link) (raw carried : Value) : Prop where
  untransformed : (model.functionsOf link).transform = none → carried = raw
  transformed : ∀ name, (model.functionsOf link).transform = some name →
    ∃ exe, model.executables.get? name = some exe ∧ exe.run [raw] model.symbols = .ok (some carried)
  constrained : ∀ name, (model.functionsOf link).constraint = some name →
    ∃ constraint, model.constraints.get? name = some constraint ∧
      Constraint.Met constraint.precondition (constraint.env model.symbols [raw] [carried]) ∧
      Constraint.Met constraint.postcondition (constraint.env model.symbols [raw] [carried])
  typed : model.symbols.conforms carried link.type = true

/-- The executable returns the value for the arguments under the constraint of the action, and the
value is of the declared type. -/
structure Model.Fulfils (model : Model) (action : Action) (exe : Executable) (args : List Value)
    (value : Value) : Prop where
  returned : exe.run args model.symbols = .ok (some value)
  typed : model.symbols.conforms value exe.returns = true
  constrained : ∀ name, action.constraint = some name →
    ∃ constraint, model.constraints.get? name = some constraint ∧
      Constraint.Met constraint.precondition (constraint.env model.symbols args []) ∧
      Constraint.Met constraint.postcondition (constraint.env model.symbols args [value])

namespace Simulation

/-- The value is the result of an activity that the component performs: values have arrived on all
input ports of the activity, and its first action is fulfilled for what the state holds. -/
structure Earned (model : Model) (sim : Simulation) (component : Component) (activity : Activity)
    (key : String) (value : Value) : Prop where
  member : sim.model.components.get? component.name = some component
  performed : ∃ name ∈ (Realization.ofModel model).1.activitiesOf component.name,
    model.activities.get? name = some activity
  present : ∀ port ∈ activity.inputPorts component, component.state.contains port = true
  named : activity.outputs.head?.map Param.name = some key
  fulfilled : ∃ action executable exe, activity.actions.head? = some action ∧
    (Realization.ofModel model).1.executableFor? action.name = some executable ∧
    model.executables.get? executable = some exe ∧
    model.Fulfils action exe (activity.bindInputs component model.symbols) value

/-- All that can warrant a change of a port or a state, given what has happened before. -/
inductive Warranted (model : Model) (config : Config) (sources : Sources) (earlier : List Moment)
    (sim : Simulation) : Event → Prop
  | seeded : Warranted model config sources earlier sim .seed
  /-- The host puts a value on a port that cannot receive. -/
  | placed {port : PortRef} {value : Value} {resolved : Port} (injected : sources.Injects port value)
      (resolves : sim.model.resolve port = .ok resolved)
      (closed : resolved.direction.canReceive = false) (fits : sim.model.Admits port value) :
      Warranted model config sources earlier sim (.place port value)
  /-- The host lets a port receive a value, while nothing is under way. -/
  | received {port target : PortRef} {value : Value} {targets : List PortRef}
      (given : sources.Injects port value ∨ sources.Submits port value) (idle : sim.wiring.Idle)
      (reaches : model.receiveTargets config.maxCascadeDepth port value = .ok targets)
      (reached : target ∈ targets) (fits : model.Admits target value) :
      Warranted model config sources earlier sim (.land target value)
  /-- A value that was queued on a link is delivered: its channel is still being served, and nothing
  but the call of the transform and landings of the same value have happened in between. -/
  | delivered {channel : String} {index : Nat} {raw carried : Value} {link : Link} {target : PortRef}
      {targets : List PortRef} {before between : List Moment} {taken : Simulation}
      (since : earlier = before ++ ⟨taken, .deliver channel ⟨index, raw⟩⟩ :: between)
      (queued : (taken.wiring.channel channel).pending.head? = some ⟨index, raw⟩)
      (only : ∀ moment ∈ between,
        (∃ element input output, moment.event = .record element .exec input output) ∨
          ∃ port, moment.event = .land port carried)
      (served : (sim.wiring.channel channel).delivering = true)
      (linked : (Wiring.ofModel model).links[index]? = some link) (through : link.channel = channel)
      (carries : model.Carries link raw carried)
      (reaches : model.receiveTargets config.maxCascadeDepth link.target carried = .ok targets)
      (reached : target ∈ targets) (fits : model.Admits target carried) :
      Warranted model config sources earlier sim (.land target carried)
  /-- The result of an activity is entered. -/
  | entered {component : Component} {activity : Activity} {key : String} {value : Value}
      (earned : Earned model sim component activity key value) :
      Warranted model config sources earlier sim (.store component.name key value)
  /-- The result of an activity leaves, right after it was entered. -/
  | emitted {component : Component} {activity : Activity} {key : String} {value : Value}
      {port out : PortRef} {chain : List PortRef} {before between : List Moment} {stored : Simulation}
      (since : earlier = before ++ ⟨stored, .store component.name key value⟩ :: between)
      (only : ∀ moment ∈ between, ∃ other, moment.event = .write other value)
      (earned : Earned model stored component activity key value)
      (output : activity.outputPort? component = some port)
      (passes : model.sendChain config.maxCascadeDepth port value = .ok chain) (passed : out ∈ chain)
      (deep : 0 < sim.depth) :
      Warranted model config sources earlier sim (.write out value)
  /-- The host or a protocol lets a port send a value, while no component reacts. -/
  | sent {port out : PortRef} {value : Value} {chain : List PortRef}
      (given : sources.Submits port value ∨ sources.Sends model.symbols port value)
      (surface : sim.depth = 0)
      (passes : model.sendChain config.maxCascadeDepth port value = .ok chain) (passed : out ∈ chain)
      (fits : model.Admits out value) :
      Warranted model config sources earlier sim (.write out value)

/-- A property of every moment of a history, given what has happened before it. -/
def Founded (holds : List Moment → Moment → Prop) : (earlier history : List Moment) → Prop
  | _, [] => True
  | earlier, moment :: later => holds earlier moment ∧ Founded holds (earlier ++ [moment]) later

namespace Founded

variable {holds : List Moment → Moment → Prop} {earlier history later : List Moment}

theorem append (first : Founded holds earlier history)
    (second : Founded holds (earlier ++ history) later) : Founded holds earlier (history ++ later) := by
  induction history generalizing earlier with
  | nil => simpa using second
  | cons moment rest ih => exact ⟨first.1, ih first.2 (by simpa using second)⟩

theorem of_forall (h : ∀ moment ∈ history, ∀ earlier, holds earlier moment) :
    Founded holds earlier history := by
  induction history generalizing earlier with
  | nil => trivial
  | cons moment rest ih =>
    obtain ⟨hfirst, hrest⟩ := List.forall_mem_cons.1 h
    exact ⟨hfirst _, ih hrest⟩

theorem of_split {moment : Moment} (h : Founded holds earlier (history ++ moment :: later)) :
    holds (earlier ++ history) moment := by
  induction history generalizing earlier with
  | nil => simpa using h.1
  | cons first rest ih => simpa using ih h.2

end Founded

section
variable {holds : List Moment → Moment → Prop} {earlier : List Moment} {value : Value}

theorem founded_lands {targets : List PortRef} {sim : Simulation}
    (h : ∀ between landing, ∀ port ∈ targets,
      (∀ moment ∈ between, ∃ other, moment.event = .land other value) →
      landing.wiring = sim.wiring → holds (earlier ++ between) ⟨landing, .land port value⟩) :
    Founded holds earlier (landHistory value targets sim) := by
  induction targets generalizing earlier sim with
  | nil => trivial
  | cons port rest ih =>
    refine ⟨by simpa using h [] sim port List.mem_cons_self (by simp) rfl, ih ?_⟩
    intro between landing other hmem hbetween hwiring
    rw [List.append_assoc]
    refine h _ landing other (List.mem_cons_of_mem _ hmem) ?_ (hwiring.trans (wiring_land ..))
    exact List.forall_mem_cons.2 ⟨⟨port, rfl⟩, hbetween⟩

theorem founded_writes {chain : List PortRef} {sim : Simulation}
    (h : ∀ between writing, ∀ port ∈ chain,
      (∀ moment ∈ between, ∃ other, moment.event = .write other value) →
      writing.depth = sim.depth → holds (earlier ++ between) ⟨writing, .write port value⟩) :
    Founded holds earlier (writeHistory value chain sim) := by
  induction chain generalizing earlier sim with
  | nil => trivial
  | cons port rest ih =>
    refine ⟨by simpa using h [] sim port List.mem_cons_self (by simp) rfl, ih ?_⟩
    intro between writing other hmem hbetween hdepth
    rw [List.append_assoc]
    refine h _ writing other (List.mem_cons_of_mem _ hmem) ?_ hdepth
    exact List.forall_mem_cons.2 ⟨⟨port, rfl⟩, hbetween⟩

end

/-- If the event of a moment changes a port or a state, then it is warranted. -/
def Moment.Justified (model : Model) (config : Config) (sources : Sources) (earlier : List Moment)
    (moment : Moment) : Prop :=
  moment.event.isChange = true → Warranted model config sources earlier moment.sim moment.event

section
variable {model : Model} {config : Config} {sources : Sources} {sim : Simulation}
  {earlier history : List Moment}

theorem founded_of_unchanged (h : ∀ moment ∈ history, moment.event.isChange = false) :
    Founded (Moment.Justified model config sources) earlier history := by
  refine .of_forall fun moment hmem earlier hchange => ?_
  rw [h moment hmem] at hchange
  cases hchange

theorem Alike.functionsOf_eq (halike : Alike (.new model config) sim) (link : Link) :
    sim.functionsOf link = model.functionsOf link := by
  unfold functionsOf Model.functionsOf
  rw [halike.realization]
  rfl

theorem admits_of_receiveTargets {limit : Nat} {port target : PortRef} {value : Value}
    {targets : List PortRef} (h : model.receiveTargets limit port value = .ok targets)
    (hmem : target ∈ targets) : model.Admits target value :=
  Model.admits_of_checkReceive (Model.checked_of_receiveTargets h target hmem)

theorem admits_of_sendChain {limit : Nat} {port out : PortRef} {value : Value} {chain : List PortRef}
    (h : model.sendChain limit port value = .ok chain) (hmem : out ∈ chain) : model.Admits out value :=
  Model.admits_of_checkSend (Model.checked_of_sendChain h out hmem)

/-! Deliveries. -/

/-- A value that comes out of the connector of a link has kept its contract. -/
theorem carries_of_checkCarried (halike : Alike (.new model config) sim) {link : Link}
    {raw carried : Value} {ran : Simulation}
    (htransformed : sim.transformed (sim.functionsOf link).transform raw = (.ok carried, ran))
    (hcarried : sim.checkCarried link (sim.functionsOf link).constraint raw carried = .ok ()) :
    model.Carries link raw carried := by
  obtain ⟨_, hconstrained, htyped⟩ := exists_of_bind_ok hcarried
  rw [halike.functionsOf_eq] at htransformed hconstrained
  refine ⟨fun hnone => ?_, fun name hname => ?_, fun name hname => ?_, ?_⟩
  · rw [hnone] at htransformed
    cases htransformed
    rfl
  · rw [hname] at htransformed
    dsimp only [transformed, runTransform] at htransformed
    rw [halike.executables_eq, halike.symbols_eq] at htransformed
    cases hexe : model.executables.get? name with
    | none =>
      simp only [hexe] at htransformed
      cases htransformed
    | some exe =>
      simp only [hexe] at htransformed
      cases hrun : exe.run [raw] model.symbols with
      | error fault =>
        simp only [hrun] at htransformed
        cases htransformed
      | ok result =>
        cases result with
        | none =>
          simp only [hrun] at htransformed
          cases htransformed
        | some output =>
          simp only [hrun] at htransformed
          cases htransformed
          exact ⟨exe, rfl, hrun⟩
  · rw [hname] at hconstrained
    dsimp only [Option.forM, checkConstraint] at hconstrained
    rw [halike.constraints_eq, halike.symbols_eq] at hconstrained
    cases hconstraint : model.constraints.get? name with
    | none =>
      simp only [hconstraint] at hconstrained
      cases hconstrained
    | some constraint =>
      simp only [hconstraint] at hconstrained
      exact ⟨constraint, rfl, Constraint.met_of_check hconstrained⟩
  · rw [halike.symbols_eq] at htyped
    exact SymbolTable.conforms_of_check htyped

/-- A delivery changes nothing, or lets land what the link makes of the raw value. -/
theorem deliver_contract (halike : Alike (.new model config) sim) (delivery : Delivery) :
    (∀ moment ∈ sim.deliverHistory delivery, moment.event.isChange = false) ∨
      ∃ link carried targets calls ran, sim.wiring.links[delivery.link]? = some link ∧
        model.Carries link delivery.value carried ∧
        model.receiveTargets config.maxCascadeDepth link.target carried = .ok targets ∧
        ran.wiring = sim.wiring ∧
        sim.deliverHistory delivery = calls ++ landHistory carried targets ran ∧
        ∀ moment ∈ calls, ∃ element input output, moment.event = .record element .exec input output := by
  have hcalls (transform : Option String) :
      ∀ moment ∈ sim.transformHistory transform delivery.value, moment.event.isChange = false := by
    intro moment hmem
    obtain ⟨_, _, _, hevent⟩ := event_of_transformHistory hmem
    rw [hevent]
    rfl
  unfold deliverHistory
  cases hlink : sim.wiring.links[delivery.link]? with
  | none => exact .inl (by simp)
  | some link =>
    dsimp only
    have hran := (sim.transformed_cases (sim.functionsOf link).transform delivery.value).1
    cases htransformed : sim.transformed (sim.functionsOf link).transform delivery.value with
    | mk made ran =>
      rw [htransformed] at hran
      cases made with
      | error fault => exact .inl (by simpa using hcalls _)
      | ok carried =>
        dsimp only
        have hsame : ran.checkCarried link (sim.functionsOf link).constraint delivery.value carried =
            sim.checkCarried link (sim.functionsOf link).constraint delivery.value carried := by
          unfold checkCarried checkConstraint
          rw [hran.model]
        cases hcarried : ran.checkCarried link (sim.functionsOf link).constraint delivery.value
          carried with
        | error fault => exact .inl (by simpa using hcalls _)
        | ok =>
          dsimp only [receiveHistory]
          cases htargets : ran.model.receiveTargets ran.limit link.target carried with
          | error fault => exact .inl (by simpa using hcalls _)
          | ok targets =>
            have hcarries := carries_of_checkCarried halike htransformed (hsame.symm.trans hcarried)
            rw [hran.model, hran.limit, halike.receiveTargets_eq] at htargets
            exact .inr ⟨link, carried, targets, _, ran, rfl, hcarries, htargets, hran.wiring, rfl,
              fun _ => event_of_transformHistory⟩

theorem founded_deliver {claimed : Simulation} {before : List Moment} {index : Nat} {link : Link}
    {raw : Value} (halike : Alike (.new model config) claimed)
    (hlink : claimed.wiring.links[index]? = some link)
    (hchannel : claimed.wiring.channel link.channel =
      { pending := [⟨index, raw⟩], delivering := true }) :
    Founded (Moment.Justified model config sources)
      (before ++ [⟨claimed, .deliver link.channel ⟨index, raw⟩⟩])
      (((Event.deliver link.channel ⟨index, raw⟩).effect claimed).deliverHistory ⟨index, raw⟩) := by
  have htaken := halike.trans (.effect (.deliver link.channel ⟨index, raw⟩) claimed)
  rcases deliver_contract htaken ⟨index, raw⟩ with
    hnone | ⟨found, carried, targets, calls, ran, hfound, hcarries, htargets, hran, hhistory, hcalls⟩
  · exact founded_of_unchanged hnone
  have hsame : found = link := Option.some.inj (hfound.symm.trans hlink)
  subst hsame
  rw [hhistory]
  refine .append (founded_of_unchanged fun moment hmem => ?_) (founded_lands ?_)
  · obtain ⟨_, _, _, hevent⟩ := hcalls moment hmem
    rw [hevent]
    rfl
  intro between landing target htarget hbetween hlanding _
  have hserved : (landing.wiring.channel found.channel).delivering = true := by
    rw [hlanding, hran, Event.effect, putChannel, Wiring.channel_putChannel, if_pos rfl, hchannel]
  have honly : ∀ moment ∈ calls ++ between,
      (∃ element input output, moment.event = .record element .exec input output) ∨
        ∃ port, moment.event = .land port carried := by
    intro moment hmem
    rcases List.mem_append.1 hmem with hmem | hmem
    · exact .inl (hcalls moment hmem)
    · exact .inr (hbetween moment hmem)
  have hsince : before ++ [⟨claimed, .deliver found.channel ⟨index, raw⟩⟩] ++ calls ++ between =
      before ++ ⟨claimed, .deliver found.channel ⟨index, raw⟩⟩ :: (calls ++ between) := by simp
  have hqueued : (claimed.wiring.channel found.channel).pending.head? = some ⟨index, raw⟩ := by
    rw [hchannel]
    rfl
  exact .delivered hsince hqueued honly hserved (halike.links ▸ hlink) rfl hcarries htargets htarget
    (admits_of_receiveTargets htargets htarget)

theorem founded_transmit (halike : Alike (.new model config) sim) (hidle : sim.wiring.Idle)
    (index : Nat) (raw : Value) :
    Founded (Moment.Justified model config sources) earlier (sim.transmitHistory index raw) := by
  cases hlink : sim.wiring.links[index]? with
  | none =>
    rw [show sim.transmitHistory index raw = [] by simp only [transmitHistory, hlink]]
    trivial
  | some link =>
    have hclaimed : Alike (.new model config) (sim.claimed link ⟨index, raw⟩) :=
      (halike.trans (.effect (.transmit index raw) sim)).trans (.effect (.claim link.channel) _)
    have hlinked := (claimed_of_link hlink raw).2.2.2.2
    have hchannel := channel_claimed hlink hidle raw link.channel
    rw [if_pos rfl] at hchannel
    rw [(transmit_idle hlink hidle raw).1]
    have hunchanged {claim : Prop} : false = true → claim := fun h => absurd h Bool.false_ne_true
    refine ⟨hunchanged, hunchanged, Founded.append ⟨hunchanged, .append ?_ ?_⟩ ?_⟩
    · exact founded_deliver hclaimed (hlinked ▸ hlink) hchannel
    · refine founded_of_unchanged fun moment hmem => ?_
      unfold failHistory at hmem
      split at hmem
      · cases hmem
      · rw [List.mem_singleton.1 hmem]
        rfl
    · refine founded_of_unchanged fun moment hmem => ?_
      split at hmem
      · cases hmem
      · rw [List.mem_singleton.1 hmem]
        rfl

theorem founded_transmitAll {value : Value} {indices : List Nat}
    (halike : Alike (.new model config) sim) (hidle : sim.wiring.Idle) :
    Founded (Moment.Justified model config sources) earlier (transmitAllHistory value indices sim) ∧
      (transmitAll value indices sim).wiring.Idle := by
  induction indices generalizing earlier sim with
  | nil => exact ⟨trivial, hidle⟩
  | cons index rest ih =>
    rw [transmitAllHistory, transmitAll]
    cases hhalted : sim.halted with
    | true => exact ⟨trivial, hidle⟩
    | false =>
      have hnext := halike.trans (transmit_leads sim index value).alike.1
      have hrest := @ih _ (earlier ++ sim.transmitHistory index value) hnext
        (idle_transmit hidle hhalted index value)
      exact ⟨(founded_transmit halike hidle index value).append hrest.1, hrest.2⟩

theorem founded_sendAlong {value : Value} {chain : List PortRef}
    (halike : Alike (.new model config) sim) (hidle : sim.wiring.Idle)
    (hwrites : Founded (Moment.Justified model config sources) earlier
      (writeHistory value chain sim)) :
    Founded (Moment.Justified model config sources) earlier (sim.sendAlongHistory chain value) ∧
      (sim.sendAlong chain value).wiring.Idle := by
  let model' := chain.foldl (fun model port => model.setPort port value) sim.model
  have houtline : model'.outline = sim.model.outline := by
    refine List.foldlRecOn (motive := fun model => Model.outline model = sim.model.outline) chain _ rfl ?_
    intro model hmodel port _
    rw [Model.outline_setPort, hmodel]
  have hwritten : Alike (.new model config) { sim with model := model' } :=
    halike.trans ⟨houtline, rfl, rfl, rfl, rfl, rfl, rfl⟩
  have hsent := @founded_transmitAll model config sources { sim with model := model' }
    (earlier ++ writeHistory value chain sim) value (chain.flatMap sim.wiring.linksFrom) hwritten hidle
  exact ⟨hwrites.append hsent.1, hsent.2⟩

end

/-! Firings. -/

section
variable {model : Model} {config : Config} {sources : Sources} {sim : Simulation}
  {earlier history : List Moment}

/-- The constraint of a firing is that of its action, and it is met by the arguments and the
result. -/
theorem fulfils_of_compute (halike : Alike (.new model config) sim) {firing : Firing} {action : Action}
    {exe : Executable} {constraint : Option Constraint} {value : Value}
    (haction : firing.constraint = action.constraint)
    (hconstraint : sim.constraintOf firing = .ok constraint)
    (hcompute : sim.compute firing exe constraint = .ok (some value))
    (hmet : sim.checkResult firing constraint (some value) = .ok ()) :
    model.Fulfils action exe firing.args value := by
  unfold compute at hcompute
  obtain ⟨_, hpre, hrun⟩ := exists_of_bind_ok hcompute
  unfold checkResult at hmet
  rw [halike.symbols_eq] at hpre hrun hmet
  refine ⟨hrun, Executable.conforms_of_run hrun, fun name hname => ?_⟩
  unfold constraintOf at hconstraint
  rw [haction, hname, halike.constraints_eq] at hconstraint
  dsimp only at hconstraint
  cases hfound : model.constraints.get? name with
  | none =>
    rw [hfound] at hconstraint
    cases hconstraint
  | some found =>
    rw [hfound] at hconstraint
    cases hconstraint
    exact ⟨found, rfl, Constraint.met_of_requireIf hpre, Constraint.met_of_requireIf hmet⟩

theorem earned_of_firing (hnamed : model.Named) (halike : Alike (.new model config) sim)
    {wakeup : Wakeup} {name key : String} {firing : Firing} {exe : Executable}
    {constraint : Option Constraint} {value : Value}
    (hregistered : name ∈ sim.realization.activitiesOf wakeup.component)
    (hplanned : sim.firingFor? wakeup name = .ok (some firing))
    (hfound : sim.model.executables.get? firing.executable = some exe)
    (hconstraint : sim.constraintOf firing = .ok constraint)
    (hcompute : sim.compute firing exe constraint = .ok (some value))
    (hmet : sim.checkResult firing constraint (some value) = .ok ())
    (hkey : firing.outputKey = some key) :
    ∃ component activity, firing.component = component.name ∧
      firing.outputPort = activity.outputPort? component ∧
      Earned model sim component activity key value := by
  have hrealization : sim.realization = (Realization.ofModel model).1 := halike.realization
  unfold firingFor? at hplanned
  cases hcomponent : sim.model.components.get? wakeup.component with
  | none =>
    rw [hcomponent] at hplanned
    cases hplanned
  | some component =>
    rw [hcomponent] at hplanned
    obtain ⟨port, _, hfire⟩ := firstFiring?_some hplanned
    obtain ⟨activity, action, executable, hactivity, _, hready, haction, hexecutable, rfl⟩ :=
      Model.fire?_some hfire
    have hname : component.name = wakeup.component :=
      hnamed.congr halike.outline _ _ hcomponent
    have hfulfils := fulfils_of_compute halike rfl hconstraint hcompute hmet
    rw [halike.symbols_eq] at hfulfils
    refine ⟨component, activity, rfl, rfl, ?_, ⟨name, ?_, ?_⟩, ?_, hkey, ?_⟩
    · rw [hname]
      exact hcomponent
    · rw [hname, ← hrealization]
      exact hregistered
    · rw [← hactivity]
      exact (congrArg (Table.get? · name) (halike.declared Model.activities fun _ => rfl)).symm
    · exact List.all_eq_true.1 hready
    · refine ⟨action, executable, exe, haction, ?_, ?_, hfulfils⟩
      · rw [← hrealization]
        exact hexecutable
      · rw [← hfound]
        exact (congrArg (Table.get? · executable) halike.executables_eq).symm

/-! Every episode is warranted. -/

theorem founded_fire {firing : Firing} {key : String} {value : Value} {chain : List PortRef}
    {component : Component} {activity : Activity} {ran stored : Simulation} {first : Moment}
    (hstart : Alike (.new model config) sim) (hchain : sim.resultChain firing value = .ok chain)
    (halike : Alike (.new model config) stored) (hidle : stored.wiring.Idle) (hdeep : 0 < stored.depth)
    (hfirst : first.event.isChange = false) (hcomponent : firing.component = component.name)
    (houtput : firing.outputPort = activity.outputPort? component)
    (hearned : Earned model ran component activity key value) :
    Founded (Moment.Justified model config sources) earlier
        (first :: ⟨ran, .store firing.component key value⟩ :: stored.sendAlongHistory chain value) ∧
      (stored.sendAlong chain value).wiring.Idle := by
  have hwrites : Founded (Moment.Justified model config sources)
      (earlier ++ [first] ++ [⟨ran, .store component.name key value⟩])
      (writeHistory value chain stored) := by
    refine founded_writes fun between writing out hmem hbetween hdepth _ => ?_
    unfold resultChain at hchain
    cases hport : firing.outputPort with
    | none =>
      rw [hport] at hchain
      cases hchain
      cases hmem
    | some port =>
      rw [hport] at hchain
      have hpasses := (hstart.sendChain_eq port value).symm.trans hchain
      have hsince : earlier ++ [first] ++ [⟨ran, .store component.name key value⟩] ++ between =
          (earlier ++ [first]) ++ ⟨ran, .store component.name key value⟩ :: between := by simp
      exact .emitted hsince hbetween hearned (houtput.symm.trans hport) hpasses hmem
        (hdepth ▸ hdeep)
  obtain ⟨hsent, hlast⟩ := founded_sendAlong halike hidle hwrites
  rw [hcomponent]
  refine ⟨⟨fun hchange => ?_, fun _ => .entered hearned, hsent⟩, hlast⟩
  rw [hfirst] at hchange
  cases hchange

theorem idle_lands (value : Value) (targets : List PortRef) (hidle : sim.wiring.Idle) :
    (targets.foldl (fun sim target => sim.land value target) sim).wiring.Idle := by
  rw [wiring_lands]
  exact hidle

theorem Episode.founded {last : Simulation} (hnamed : model.Named)
    (episode : Episode sources sim history last) (halike : Alike (.new model config) sim)
    (hidle : sim.wiring.Idle) (earlier : List Moment) :
    Founded (Moment.Justified model config sources) earlier history ∧ last.wiring.Idle := by
  cases episode with
  | @note event quiet =>
    have hquiet : event.isChange = false ∧ event.isTransport = false := by
      cases event with
      | record | fail | halt | drain | pop | wake | attempt | rest | resume => exact ⟨rfl, rfl⟩
      | _ => cases quiet
    exact ⟨founded_of_unchanged (by simpa using hquiet.1), idle_effect hquiet.2 hidle⟩
  | seed => exact ⟨⟨fun _ => .seeded, trivial⟩, hidle⟩
  | @place port value resolved injected surface resolves closed fits =>
    have hadmits : sim.model.Admits port value :=
      ⟨resolved, resolves, Model.conforms_of_checkPayload fits⟩
    exact ⟨⟨fun _ => .placed injected resolves closed hadmits, trivial⟩, hidle⟩
  | @arrive port value targets given surface reaches =>
    rw [halike.receiveTargets_eq] at reaches
    refine ⟨founded_lands fun between landing target hmem _ hwiring _ => ?_, idle_lands _ _ hidle⟩
    exact .received given (hwiring ▸ hidle) reaches hmem (admits_of_receiveTargets reaches hmem)
  | @propagate index link value surface live linked held =>
    exact ⟨founded_transmit halike hidle index value, idle_transmit hidle live index value⟩
  | @send port value chain given surface passes =>
    rw [halike.sendChain_eq] at passes
    rw [halike.symbols_eq] at given
    refine founded_sendAlong halike hidle (founded_writes fun between writing out hmem _ hdepth _ => ?_)
    exact .sent given (hdepth.trans surface) passes hmem (admits_of_sendChain passes hmem)
  | @fire wakeup name key firing exe constraint value chain ran stored registered deep planned found
      constrained computed met keyed passes ran_eq stored_eq =>
    obtain ⟨component, activity, hcomponent, houtput, hearned⟩ :=
      earned_of_firing hnamed halike registered planned found constrained computed met keyed
    subst ran_eq stored_eq
    have hran := halike.trans (.effect (.record firing.executable .exec
      (some (exe.callRecord firing.args)) value) sim)
    have hstored := hran.trans (.effect (.store firing.component key value) _)
    exact founded_fire halike passes hstored hidle deep rfl hcomponent houtput
      ⟨hearned.member, hearned.performed, hearned.present, hearned.named, hearned.fulfilled⟩

theorem Episodes.founded {last : Simulation} (hnamed : model.Named)
    (episodes : Episodes sources sim history last) (halike : Alike (.new model config) sim)
    (hidle : sim.wiring.Idle) (earlier : List Moment) :
    Founded (Moment.Justified model config sources) earlier history := by
  induction episodes generalizing earlier with
  | nil => trivial
  | cons head _ ih =>
    obtain ⟨hfirst, hmid⟩ := head.founded hnamed halike hidle earlier
    exact hfirst.append (ih (halike.trans head.leads.alike.1) hmid _)

end

/-- An event that is not a change leaves all ports and states as they are. -/
theorem model_effect {event : Event} (h : event.isChange = false) (sim : Simulation) :
    (event.effect sim).model = sim.model := by
  cases event with
  | land | write | store | place | seed => cases h
  | transmit index value =>
    unfold Event.effect
    dsimp only
    split <;> rfl
  | fail element kind input fault =>
    unfold Event.effect Simulation.fail
    dsimp only
    split <;> rfl
  | _ => rfl

def Event.store? : Event → Option (String × String × Value)
  | .store component key value => some (component, key, value)
  | _ => none

end Simulation

/-- A sensor whose value reaches a lamp negated, and a lamp that shows the negation of that. The
connector and the action of the lamp are both constrained. -/
def inverter : Model where
  name := "inverter"
  components := .ofList [
    ("sensor", {
      name := "sensor"
      ports := [⟨"out", .output, "sensor", .boolean, none⟩] }),
    ("lamp", {
      name := "lamp"
      ports := [⟨"in", .input, "lamp", .boolean, none⟩, ⟨"light", .output, "lamp", .boolean, none⟩]
      activities := ["shine"] })]
  connectors := .ofList [("wire", {
    name := "wire"
    flows := [⟨⟨"sensor", "out"⟩, ⟨"lamp", "in"⟩, .boolean⟩]
    transform := some "negate"
    constraint := some "opposed" })]
  activities := .ofList [("shine", {
    name := "shine"
    inputs := [⟨"in", .boolean, none⟩]
    outputs := [⟨"light", .boolean, none⟩]
    actions := [⟨"switch", some "opposed"⟩] })]
  executables := .ofList [("negate", {
    name := "negate"
    params := [⟨"x", .boolean, none⟩]
    returns := .boolean
    body := [.ret (.unary "!" (.variable "x"))] })]
  constraints := .ofList [("opposed", {
    name := "opposed"
    postcondition := some (.binary "!=" (.variable "output") (.variable "input")) })]
  allocations := [.executable "negate" "switch"]

namespace Session

open Simulation (Moment Leads Event Warranted)

variable {model : Model} {config : Config} {session : Session}

theorem named_of_load (h : load model config = .ok session) : model.Named := by
  obtain ⟨_, hvalid, _⟩ := exists_of_bind_ok h
  exact Model.named_of_validate hvalid

/-- Contracts guard every change. In a call on any session of a model that can be loaded, after any
other calls, every event either leaves all ports and states as they are or is warranted by what has
happened before: by a delivery whose value the link carries, by a result that an activity has
earned, by a send of a protocol, by a value from the host, or by the seeding of the states. -/
theorem changes_warranted (h : load model config = .ok session) (calls : List Call) (call : Call) :
    let before := session.performAll calls
    Leads Event.Checked (before.start call) (before.history call) (before.perform call).simulation ∧
      ∀ earlier sim event later, before.history call = earlier ++ ⟨sim, event⟩ :: later →
        event.isChange = false ∧ (event.effect sim).model = sim.model ∨
          Warranted model config (before.sources call) earlier sim event := by
  intro before
  have hresting := (Resting.of_load h).performAll calls
  have hepisodes := hresting.episodes call
  obtain ⟨halike, hidle⟩ := hresting.begins call
  refine ⟨hepisodes.leads, fun earlier sim event later hsplit => ?_⟩
  have hfounded := hepisodes.founded (named_of_load h) halike hidle []
  rw [hsplit] at hfounded
  cases hchange : event.isChange with
  | false => exact .inl ⟨rfl, Simulation.model_effect hchange sim⟩
  | true => exact .inr (by simpa using hfounded.of_split hchange)

theorem changes_warranted_inverter :
    let loaded : Session :=
      { model := inverter, inputs := {}, config := {}, simulation := .new inverter {} }
    let call := Call.sendToPort "sensor.out" (.bool true)
    load inverter {} = .ok loaded ∧
      Simulation.landings (loaded.history call) = [(⟨"lamp", "in"⟩, .bool false)] ∧
      Simulation.collect Event.store? (loaded.history call) = [("lamp", "light", .bool true)] ∧
      ∃ earlier sim later,
        loaded.history call = earlier ++ ⟨sim, .land ⟨"lamp", "in"⟩ (.bool false)⟩ :: later ∧
          Warranted inverter {} (loaded.sources call) earlier sim
            (.land ⟨"lamp", "in"⟩ (.bool false)) := by
  intro loaded call
  have hlandings : Simulation.landings (loaded.history call) = [(⟨"lamp", "in"⟩, .bool false)] := by
    decide +kernel
  have hmem : (⟨"lamp", "in"⟩, .bool false) ∈ Simulation.landings (loaded.history call) := by
    rw [hlandings]
    exact List.mem_cons_self
  obtain ⟨earlier, sim, event, later, hsplit, hland⟩ := Simulation.exists_of_mem_collect hmem
  rw [Event.eq_land hland] at hsplit
  refine ⟨rfl, hlandings, by decide +kernel, earlier, sim, later, hsplit, ?_⟩
  have h := (changes_warranted (show load inverter {} = .ok loaded from rfl) [] call).2
    earlier sim _ later hsplit
  rcases h with ⟨hchange, _⟩ | hwarranted
  · cases hchange
  · exact hwarranted

end Session
end Archflow
