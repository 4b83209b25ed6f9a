import Archflow.Proofs.Cascade
import Archflow.Proofs.Harmless

/-!
Work under a larger limit. The cascade limit is compared with the depth of a wake-up, the length of a
chain of sending ports and the hops to a receiving port, and whatever exceeds it halts the run. So
work that does not halt the run is the same under every larger limit: raising the limit first and
then doing the work comes to the same as raising it afterwards.
-/
namespace Archflow

namespace Model

variable {limit raised : Nat} (hle : limit ≤ raised)
include hle

theorem receiveLoop_raise {model : Model} {value : Value} {targets : List PortRef}
    {pending : List (PortRef × Nat)}
    (h : Harmless (model.receiveLoop limit value targets pending)) :
    model.receiveLoop raised value targets pending =
      model.receiveLoop limit value targets pending := by
  fun_induction receiveLoop model limit value targets pending with
  | case1 targets => rw [receiveLoop]
  | case2 => cases h _ rfl
  | case3 targets ref hops rest hshallow fault hcheck =>
    rw [receiveLoop, dif_neg (by omega), hcheck]
  | case4 targets ref hops rest hshallow hcheck _ ih =>
    rw [receiveLoop, dif_neg (by omega), hcheck]
    exact ih h

theorem receiveTargets_raise {model : Model} {ref : PortRef} {value : Value}
    (h : Harmless (model.receiveTargets limit ref value)) :
    model.receiveTargets raised ref value = model.receiveTargets limit ref value :=
  receiveLoop_raise hle h

omit hle in
theorem chainFrom_raise {model : Model} {value : Value} {budget more : Nat} {ref : PortRef}
    (hbudget : budget ≤ more) (h : Harmless (model.chainFrom limit value budget ref)) :
    model.chainFrom raised value more ref = model.chainFrom limit value budget ref := by
  induction budget generalizing more ref with
  | zero => cases h _ rfl
  | succ budget ih =>
    obtain ⟨more, rfl⟩ : ∃ rest, more = rest + 1 := ⟨more - 1, by omega⟩
    rw [chainFrom] at h ⊢
    rw [chainFrom]
    cases hcheck : model.checkSend ref value with
    | error fault => rfl
    | ok =>
      rw [hcheck] at h
      cases houter : model.delegatingOuter? ref with
      | none => rfl
      | some outer =>
        simp only [houter] at h
        have hrest : Harmless (model.chainFrom limit value budget outer) := by
          intro fault hfault
          rw [hfault] at h
          exact h fault rfl
        dsimp only
        rw [ih (Nat.le_of_succ_le_succ hbudget) hrest]

theorem sendChain_raise {model : Model} {ref : PortRef} {value : Value}
    (h : Harmless (model.sendChain limit ref value)) :
    model.sendChain raised ref value = model.sendChain limit ref value :=
  chainFrom_raise (Nat.succ_le_succ hle) h

end Model

namespace Simulation

def raise (limit : Nat) (sim : Simulation) : Simulation :=
  { sim with config := { sim.config with maxCascadeDepth := limit } }

variable {limit : Nat} {sim : Simulation}

theorem effect_raise (event : Event) :
    event.effect (sim.raise limit) = (event.effect sim).raise limit := by
  cases event with
  | transmit index value =>
    unfold Event.effect
    dsimp only [raise]
    cases sim.wiring.links[index]? <;> rfl
  | land port value =>
    unfold Event.effect land
    dsimp only
    rw [apply_ite (raise limit)]
    rfl
  | fail element kind input fault =>
    unfold Event.effect fail
    dsimp only
    rw [apply_ite (raise limit)]
    rfl
  | _ => rfl

theorem fail_raise (element : String) (kind : StepKind) (input : Option Value) (fault : Fault) :
    (sim.raise limit).fail element kind input fault =
      (sim.fail element kind input fault).raise limit :=
  effect_raise (.fail element kind input fault)

theorem failIf_raise (element : String) (kind : StepKind) (input : Option Value)
    (outcome : Except Fault Unit) :
    (sim.raise limit).failIf element kind input outcome =
      (sim.failIf element kind input outcome).raise limit := by
  cases outcome with
  | ok => rfl
  | error fault => exact fail_raise ..

theorem harmless_of_failIf {element : String} {kind : StepKind} {input : Option Value}
    {outcome : Except Fault Unit} (h : (sim.failIf element kind input outcome).halted = false) :
    Harmless outcome := by
  rintro fault rfl
  cases hfatal : fault.isFatal with
  | false => rfl
  | true => simp [failIf, fail, hfatal, halt] at h

theorem lands_raise (value : Value) (targets : List PortRef) (sim : Simulation) :
    targets.foldl (fun sim target => sim.land value target) (sim.raise limit) =
      (targets.foldl (fun sim target => sim.land value target) sim).raise limit := by
  induction targets generalizing sim with
  | nil => rfl
  | cons port rest ih =>
    have hland : (sim.raise limit).land value port = (sim.land value port).raise limit :=
      effect_raise (.land port value)
    rw [List.foldl_cons, List.foldl_cons, hland]
    exact ih _

theorem transformed_raise (transform : Option String) (raw : Value) :
    (sim.raise limit).transformed transform raw =
      (sim.transformed transform raw).map id (raise limit) := by
  cases transform with
  | none => rfl
  | some name =>
    dsimp only [transformed, runTransform, raise]
    cases sim.model.executables.get? name with
    | none => rfl
    | some exe =>
      dsimp only
      cases exe.run [raw] sim.model.symbols with
      | error fault => rfl
      | ok result => cases result <;> rfl

/-! Transmissions under a larger limit. -/

section
variable (hle : sim.limit ≤ limit)
include hle

theorem receive_raise {port : PortRef} {value : Value} (h : Harmless (sim.receive port value).1) :
    (sim.raise limit).receive port value = (sim.receive port value).map id (raise limit) := by
  have hsafe : Harmless (sim.model.receiveTargets sim.limit port value) := by
    intro fault hfault
    exact h fault (by simp only [receive, hfault])
  have htargets : (sim.raise limit).model.receiveTargets (sim.raise limit).limit port value =
      sim.model.receiveTargets sim.limit port value := Model.receiveTargets_raise hle hsafe
  unfold receive
  rw [htargets]
  cases sim.model.receiveTargets sim.limit port value with
  | error fault => rfl
  | ok targets => exact Prod.ext rfl (lands_raise value targets sim)

theorem deliver_raise {delivery : Delivery} (h : Harmless (sim.deliver delivery).1) :
    (sim.raise limit).deliver delivery = (sim.deliver delivery).map id (raise limit) := by
  unfold deliver at h ⊢
  cases hlink : sim.wiring.links[delivery.link]? with
  | none =>
    simp only [raise, hlink]
    rfl
  | some link =>
    have hran := (sim.transformed_cases (sim.functionsOf link).transform delivery.value).1
    have hraised : (sim.raise limit).wiring.links[delivery.link]? = some link := hlink
    have hfunctions : (sim.raise limit).functionsOf link = sim.functionsOf link := rfl
    simp only [hraised, hfunctions, transformed_raise]
    simp only [hlink] at h
    generalize sim.transformed (sim.functionsOf link).transform delivery.value = made at hran h ⊢
    obtain ⟨carried, ran⟩ := made
    cases carried with
    | error fault => rfl
    | ok carried =>
      have hcheck : (ran.raise limit).checkCarried link (sim.functionsOf link).constraint
          delivery.value carried = ran.checkCarried link (sim.functionsOf link).constraint
          delivery.value carried := rfl
      simp only [Prod.map, id, hcheck] at h ⊢
      cases hresult : ran.checkCarried link (sim.functionsOf link).constraint delivery.value carried with
      | error fault => rfl
      | ok =>
        simp only [hresult] at h
        exact receive_raise (hran.limit ▸ hle) h

theorem serve_raise {name : String} {delivery : Delivery}
    (hlive : (sim.serve name delivery).halted = false) :
    (sim.raise limit).serve name delivery = (sim.serve name delivery).raise limit := by
  unfold serve at hlive ⊢
  have htaken : ((Event.deliver name delivery).effect sim).limit ≤ limit := hle
  rw [effect_raise, deliver_raise htaken (harmless_of_failIf hlive)]
  exact failIf_raise ..

omit hle in
theorem pumpLoop_raise {name : String} {count : Nat} {sim : Simulation} (hle : sim.limit ≤ limit)
    (hlive : (pumpLoop name count sim).halted = false) :
    pumpLoop name count (sim.raise limit) = (pumpLoop name count sim).raise limit := by
  induction count generalizing sim with
  | zero => rfl
  | succ count ih =>
    have hchannel : (sim.raise limit).wiring.channel name = sim.wiring.channel name := rfl
    rw [pumpLoop_succ] at hlive ⊢
    rw [pumpLoop_succ, hchannel]
    cases hnext : (sim.wiring.channel name).next? with
    | none => rfl
    | some next =>
      simp only [hnext] at hlive
      dsimp only
      cases hserved : (sim.serve name next.1).halted with
      | true => simp [hserved] at hlive
      | false =>
        simp only [hserved, Bool.false_eq_true, if_false] at hlive
        have hlimit : (sim.serve name next.1).limit = sim.limit :=
          (sim.serve_leads name next.1).alike.1.limit
        have hraised : ((sim.serve name next.1).raise limit).halted = false := hserved
        rw [serve_raise hle hserved, hraised]
        simpa using ih (hlimit ▸ hle) hlive

theorem pump_raise {name : String} (hlive : (sim.pump name).halted = false) :
    (sim.raise limit).pump name = (sim.pump name).raise limit := by
  unfold pump at hlive ⊢
  have hchannel : (sim.raise limit).wiring.channel name = sim.wiring.channel name := rfl
  rw [hchannel]
  cases hbegin : (sim.wiring.channel name).begin? with
  | none => rfl
  | some channel =>
    rw [hbegin] at hlive
    exact @pumpLoop_raise limit name channel.size (sim.putChannel name channel) hle hlive

theorem transmit_raise {index : Nat} {value : Value}
    (hlive : (sim.transmit index value).halted = false) :
    (sim.raise limit).transmit index value = (sim.transmit index value).raise limit := by
  cases hlink : sim.wiring.links[index]? with
  | none => simp only [transmit, raise, hlink]
  | some link =>
    have hraised : (sim.raise limit).wiring.links[index]? = some link := hlink
    have hlimit := (Alike.effect (.transmit index value) sim).limit
    rw [transmit_eq hlink] at hlive ⊢
    rw [transmit_eq hraised, effect_raise]
    exact pump_raise (hlimit ▸ hle) hlive

omit hle in
theorem transmitAll_raise {value : Value} {indices : List Nat} {sim : Simulation}
    (hle : sim.limit ≤ limit) (hlive : (transmitAll value indices sim).halted = false) :
    transmitAll value indices (sim.raise limit) = (transmitAll value indices sim).raise limit := by
  induction indices generalizing sim with
  | nil => rfl
  | cons index rest ih =>
    have hraised : (sim.raise limit).halted = sim.halted := rfl
    rw [transmitAll] at hlive ⊢
    rw [transmitAll, hraised]
    cases hhalted : sim.halted with
    | true => simp [hhalted] at hlive
    | false =>
      simp only [hhalted, Bool.false_eq_true, if_false] at hlive ⊢
      have hsent := live_of_transmitAll hlive
      have hlimit : (sim.transmit index value).limit = sim.limit :=
        (sim.transmit_leads index value).alike.1.limit
      rw [transmit_raise hle hsent]
      exact ih (hlimit ▸ hle) hlive

theorem sendAlong_raise {chain : List PortRef} {value : Value}
    (hlive : (sim.sendAlong chain value).halted = false) :
    (sim.raise limit).sendAlong chain value = (sim.sendAlong chain value).raise limit := by
  let model := chain.foldl (fun model port => model.setPort port value) sim.model
  exact @transmitAll_raise limit value (chain.flatMap sim.wiring.linksFrom) { sim with model } hle hlive

theorem send_raise {port : PortRef} {value : Value} (h : Harmless (sim.send port value).1)
    (hlive : (sim.send port value).2.halted = false) :
    (sim.raise limit).send port value = (sim.send port value).map id (raise limit) := by
  have hsafe : Harmless (sim.model.sendChain sim.limit port value) := by
    intro fault hfault
    exact h fault (by simp only [send, hfault])
  have hchain : (sim.raise limit).model.sendChain (sim.raise limit).limit port value =
      sim.model.sendChain sim.limit port value := Model.sendChain_raise hle hsafe
  unfold send at hlive ⊢
  rw [hchain]
  cases hfound : sim.model.sendChain sim.limit port value with
  | error fault => rfl
  | ok chain =>
    rw [hfound] at hlive
    exact Prod.ext rfl (sendAlong_raise hle hlive)

/-! Reactions under a larger limit. -/

theorem resultChain_raise {firing : Firing} {value : Value}
    (h : Harmless (sim.resultChain firing value)) :
    (sim.raise limit).resultChain firing value = sim.resultChain firing value := by
  unfold resultChain at h ⊢
  cases hport : firing.outputPort with
  | none => rfl
  | some port =>
    rw [hport] at h
    exact Model.sendChain_raise hle h

theorem emit_raise {firing : Firing} {result : Option Value} (h : Harmless (sim.emit firing result).1)
    (hlive : (sim.emit firing result).2.halted = false) :
    (sim.raise limit).emit firing result = (sim.emit firing result).map id (raise limit) := by
  unfold emit at h hlive ⊢
  cases hkey : firing.outputKey with
  | none => rfl
  | some key =>
    cases result with
    | none => rfl
    | some value =>
      simp only [hkey] at h hlive ⊢
      have hsafe : Harmless (sim.resultChain firing value) := by
        intro fault hfault
        simp only [hfault] at h
        exact h fault rfl
      rw [resultChain_raise hle hsafe]
      cases hchain : sim.resultChain firing value with
      | error fault => rfl
      | ok chain =>
        simp only [hchain] at hlive
        let model := sim.model.setState firing.component key value
        exact Prod.ext rfl (@sendAlong_raise limit { sim with model } hle chain value hlive)

theorem execute_raise {firing : Firing} (h : Harmless (sim.execute firing).1)
    (hlive : (sim.execute firing).2.halted = false) :
    (sim.raise limit).execute firing = (sim.execute firing).map id (raise limit) := by
  unfold execute at h hlive ⊢
  have hmodel : (sim.raise limit).model = sim.model := rfl
  have hconstraint : (sim.raise limit).constraintOf firing = sim.constraintOf firing := rfl
  rw [hmodel, hconstraint]
  cases hexe : sim.model.executables.get? firing.executable with
  | none => rfl
  | some exe =>
    simp only [hexe] at h hlive ⊢
    cases hfound : sim.constraintOf firing with
    | error fault => rfl
    | ok constraint =>
      simp only [hfound] at h hlive ⊢
      have hsame : (sim.raise limit).compute firing exe constraint =
          sim.compute firing exe constraint := rfl
      rw [hsame]
      cases hcompute : sim.compute firing exe constraint with
      | error fault => rfl
      | ok result =>
        simp only [hcompute] at h hlive
        dsimp only
        -- The call is put on record before its result is looked at.
        generalize hran : sim.record firing.executable .exec (some (exe.callRecord firing.args)) result =
          ran at h hlive ⊢
        have hraised : (sim.raise limit).record firing.executable .exec
            (some (exe.callRecord firing.args)) result = ran.raise limit := by
          rw [← hran]
          rfl
        have hcheck : (ran.raise limit).checkResult firing constraint result =
            ran.checkResult firing constraint result := rfl
        have hlimit : ran.limit = sim.limit := by
          rw [← hran]
          rfl
        rw [hraised, hcheck]
        cases hresult : ran.checkResult firing constraint result with
        | error fault => rfl
        | ok =>
          simp only [hresult] at h hlive
          exact emit_raise (hlimit ▸ hle) h hlive

omit hle in
theorem firingFor?_raise (wakeup : Wakeup) (activity : String) :
    (sim.raise limit).firingFor? wakeup activity = sim.firingFor? wakeup activity := by
  have hfirst (component : Component) (ports : List String) :
      (sim.raise limit).firstFiring? component activity ports =
        sim.firstFiring? component activity ports := by
    induction ports with
    | nil => rfl
    | cons port rest ih =>
      rw [firstFiring?, firstFiring?, ih]
      rfl
  unfold firingFor?
  dsimp only [raise]
  cases sim.model.components.get? wakeup.component with
  | none => rfl
  | some component => exact hfirst component wakeup.ports

theorem tryActivity_raise {wakeup : Wakeup} {activity : String}
    (hlive : (sim.tryActivity wakeup activity).halted = false) :
    (sim.raise limit).tryActivity wakeup activity =
      (sim.tryActivity wakeup activity).raise limit := by
  unfold tryActivity at hlive ⊢
  rw [firingFor?_raise]
  cases hfiring : sim.firingFor? wakeup activity with
  | error fault => exact fail_raise ..
  | ok plan =>
    cases plan with
    | none => rfl
    | some firing =>
      simp only [hfiring] at hlive
      dsimp only
      rw [execute_raise hle (harmless_of_failIf hlive) (live_of_failIf hlive)]
      exact failIf_raise ..

omit hle in
theorem tryActivities_raise {wakeup : Wakeup} {activities : List String} {sim : Simulation}
    (hle : sim.limit ≤ limit) (hlive : (tryActivities wakeup activities sim).halted = false) :
    tryActivities wakeup activities (sim.raise limit) =
      (tryActivities wakeup activities sim).raise limit := by
  induction activities generalizing sim with
  | nil => rfl
  | cons activity rest ih =>
    have hraised : (sim.raise limit).halted = sim.halted := rfl
    rw [tryActivities] at hlive ⊢
    rw [tryActivities, hraised]
    cases hhalted : sim.halted with
    | true => simp [hhalted] at hlive
    | false =>
      simp only [hhalted, Bool.false_eq_true, if_false] at hlive ⊢
      have hlimit := (sim.tryActivity_course wakeup activity hhalted).checked.alike.1.limit
      rw [tryActivity_raise hle (live_of_tryActivities hlive)]
      exact ih (hlimit ▸ hle) hlive

theorem wake_raise {wakeup : Wakeup} (hlive : (sim.wake wakeup).halted = false) :
    (sim.raise limit).wake wakeup = (sim.wake wakeup).raise limit := by
  have htried := @tryActivities_raise limit wakeup (sim.realization.activitiesOf wakeup.component)
    { sim with depth := wakeup.depth + 1 } hle hlive
  exact congrArg (fun after : Simulation => { after with depth := sim.depth }) htried

end

/-! Drains under a larger limit. -/

section
variable {fuel : Nat} {wakeup : Wakeup} {rest : List Wakeup}

theorem drainLoop_settled (h : sim.wakeups = []) : drainLoop fuel sim = sim := by
  cases fuel with
  | zero => rfl
  | succ fuel => rw [drainLoop, h]

theorem drainLoop_round (hlive : sim.halted = false) (next : sim.wakeups = wakeup :: rest)
    (shallow : wakeup.depth ≤ sim.limit) :
    drainLoop (fuel + 1) sim = drainLoop fuel ({ sim with wakeups := rest }.wake wakeup) := by
  rw [drainLoop, next]
  dsimp only
  rw [if_neg (by simp [hlive])]
  exact if_neg (Nat.not_lt.2 shallow)

theorem shallow_of_drainLoop (hlive : (drainLoop (fuel + 1) sim).halted = false)
    (next : sim.wakeups = wakeup :: rest) : wakeup.depth ≤ sim.limit := by
  have hgoing := live_of_drainLoop hlive
  rw [drainLoop, next] at hlive
  dsimp only at hlive
  rw [if_neg (by simp [hgoing])] at hlive
  split at hlive
  · cases hlive
  · next hdepth => exact Nat.le_of_not_lt hdepth

end

theorem drainLoop_raise {fuel : Nat} {sim : Simulation} (hle : sim.limit ≤ limit)
    (hlive : (drainLoop fuel sim).halted = false) :
    drainLoop fuel (sim.raise limit) = (drainLoop fuel sim).raise limit := by
  induction fuel generalizing sim with
  | zero => rfl
  | succ fuel ih =>
    cases next : sim.wakeups with
    | nil =>
      have hraised : (sim.raise limit).wakeups = [] := next
      rw [drainLoop_settled next, drainLoop_settled hraised]
    | cons wakeup rest =>
      have hgoing := live_of_drainLoop hlive
      have shallow := shallow_of_drainLoop hlive next
      have hraised : drainLoop (fuel + 1) (sim.raise limit) =
          drainLoop fuel (({ sim with wakeups := rest }.raise limit).wake wakeup) :=
        @drainLoop_round (sim.raise limit) fuel wakeup rest hgoing next (Nat.le_trans shallow hle)
      have hlimit := (wake_leads { sim with wakeups := rest } wakeup).alike.1.limit
      rw [drainLoop_round hgoing next shallow] at hlive ⊢
      rw [hraised, @wake_raise limit { sim with wakeups := rest } hle _ (live_of_drainLoop hlive)]
      exact ih (hlimit ▸ hle) hlive

theorem drainLoop_more {fuel more : Nat} {sim : Simulation} (hle : fuel ≤ more)
    (hlive : (drainLoop fuel sim).halted = false) (h : (drainLoop fuel sim).wakeups = []) :
    drainLoop more sim = drainLoop fuel sim := by
  induction fuel generalizing more sim with
  | zero => exact drainLoop_settled h
  | succ fuel ih =>
    cases next : sim.wakeups with
    | nil => rw [drainLoop_settled next, drainLoop_settled next]
    | cons wakeup rest =>
      obtain ⟨more, rfl⟩ : ∃ rest, more = rest + 1 := ⟨more - 1, by omega⟩
      have hgoing := live_of_drainLoop hlive
      have shallow := shallow_of_drainLoop hlive next
      rw [drainLoop_round hgoing next shallow] at hlive h ⊢
      rw [drainLoop_round hgoing next shallow]
      exact ih (Nat.le_of_succ_le_succ hle) hlive h

theorem drain_raise {model : Model} {config : Config} (h : Steady model config sim)
    (hle : sim.limit ≤ limit) (hlive : sim.drain.halted = false) :
    (sim.raise limit).drain = sim.drain.raise limit := by
  have hbound : sim.drainBound ≤ (sim.raise limit).drainBound := by
    have hmul := Nat.mul_le_mul_right (sim.model.components.size + 1) (Nat.add_le_add_right hle 2)
    exact Nat.add_le_add_left hmul sim.wakeups.length
  have hempty := h.settles.emptied (live_of_drainLoop hlive)
  have hsame : drainLoop sim.drainBound (sim.raise limit) = sim.drain.raise limit :=
    drainLoop_raise hle hlive
  have hmore := drainLoop_more hbound (by rw [hsame]; exact hlive) (by rw [hsame]; exact hempty)
  exact hmore.trans hsame

end Simulation
end Archflow
