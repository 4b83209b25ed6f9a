import Archflow.Proofs.Outline
import Archflow.Protocol.PortTable

/-!
Runs of protocols, action by action. A run goes through the actions as often as its control mode says
and stops at the first one that fails, so what it does is a beginning of the unrolled list of actions
(`run_stretch`). Every result is accounted for by the steps before it: what a port holds is what was
sent from it last, and what a name stands for is what was received under it last, be it in an earlier
iteration or in an earlier run of the machine (`run_accounted`).
-/
namespace Archflow

namespace Env

theorem lookup_bindAll {pairs : List (String × Value)} (hdistinct : (pairs.map Prod.fst).Nodup)
    (env : Env) (name : String) :
    (env.bindAll pairs).lookup name =
      ((Entries.lookup name pairs).map Binding.value).or (env.lookup name) := by
  induction pairs generalizing env with
  | nil => rfl
  | cons pair rest ih =>
    rw [List.map_cons, List.nodup_cons] at hdistinct
    have hrest := ih hdistinct.2 (env.bind pair.1 pair.2)
    rw [lookup_bind] at hrest
    refine hrest.trans ?_
    rw [Entries.lookup]
    by_cases hname : name = pair.1
    · subst hname
      cases hfound : Entries.lookup pair.1 rest with
      | none => simp
      | some item => exact absurd (List.mem_map_of_mem (Entries.mem_of_lookup hfound)) hdistinct.1
    · simp [hname]

@[simp] theorem symbols_bindAll (env : Env) (pairs : List (String × Value)) :
    (env.bindAll pairs).symbols = env.symbols := by
  induction pairs generalizing env with
  | nil => rfl
  | cons pair rest ih => exact ih (env.bind pair.1 pair.2)

/-- The environment of a table of values has these values and no others. -/
theorem lookup_bindAll_toList (symbols : SymbolTable) (bindings : Table Value) (name : String) :
    ((Env.new symbols).bindAll bindings.toList).lookup name =
      (bindings.get? name).map Binding.value := by
  have hnew : (Env.new symbols).lookup name = none := rfl
  rw [Table.toList, lookup_bindAll bindings.ordered.nodup_keys, hnew, Option.or_none]
  rfl

end Env

namespace Protocol

structure Step where
  iteration : Nat
  action : Action
  value : Value

namespace Step

def result (step : Step) : Result :=
  ⟨step.iteration, step.action.operation, step.action.port, step.value⟩

/-- The place of the step in the unrolled list of actions. -/
def planned (step : Step) : Nat × Action := (step.iteration, step.action)

def binds (name : String) (step : Step) : Bool :=
  match step.action with
  | .receive _ bind => bind == some name
  | .send .. => false

def sendsFrom (port : String) (step : Step) : Bool :=
  match step.action with
  | .send source _ => source == port
  | .receive .. => false

end Step

/-- The value of the last step that passes a test. -/
def latest? (test : Step → Bool) (steps : List Step) : Option Value :=
  (steps.reverse.find? test).map Step.value

theorem latest?_append (test : Step → Bool) (steps later : List Step) :
    latest? test (steps ++ later) = (latest? test later).or (latest? test steps) := by
  unfold latest?
  rw [List.reverse_append, List.find?_append]
  cases later.reverse.find? test <;> simp

theorem latest?_cons (test : Step → Bool) (step : Step) (later : List Step) :
    latest? test (step :: later) =
      (latest? test later).or (if test step then some step.value else none) := by
  rw [← List.singleton_append, latest?_append]
  cases h : test step <;> simp [latest?, h]

/-- The ports after some steps: what was sent from a port last is what it holds. -/
def portsAfter (ports : Table Port) (steps : List Step) : Table Port :=
  ports.map fun name port => { port with value := (latest? (Step.sendsFrom name) steps).or port.value }

/-- All actions as often as they are gone through, each with the number of its iteration. -/
def unrolledFrom (protocol : Protocol) (iteration : Nat) : (remaining : Nat) → List (Nat × Action)
  | 0 => []
  | remaining + 1 =>
      protocol.actions.map (iteration, ·) ++ protocol.unrolledFrom (iteration + 1) remaining

theorem length_unrolledFrom (protocol : Protocol) (iteration remaining : Nat) :
    (protocol.unrolledFrom iteration remaining).length = remaining * protocol.actions.length := by
  induction remaining generalizing iteration with
  | zero => simp [unrolledFrom]
  | succ remaining ih =>
    rw [unrolledFrom, List.length_append, List.length_map, ih, Nat.succ_mul, Nat.add_comm]

/-- A place in the unrolled list belongs to the iteration and to the action that a division by the
number of actions gives. -/
theorem getElem?_unrolledFrom {protocol : Protocol} {iteration remaining place : Nat}
    {planned : Nat × Action}
    (h : (protocol.unrolledFrom iteration remaining)[place]? = some planned) :
    planned.1 = iteration + place / protocol.actions.length ∧
      protocol.actions[place % protocol.actions.length]? = some planned.2 := by
  induction remaining generalizing iteration place with
  | zero => simp [unrolledFrom] at h
  | succ remaining ih =>
    rw [unrolledFrom] at h
    by_cases hplace : place < protocol.actions.length
    · rw [List.getElem?_append_left (by simpa using hplace), List.getElem?_map] at h
      obtain ⟨action, haction, rfl⟩ := Option.map_eq_some_iff.1 h
      rw [Nat.div_eq_of_lt hplace, Nat.mod_eq_of_lt hplace]
      exact ⟨rfl, haction⟩
    · rw [List.getElem?_append_right (by simpa using hplace), List.length_map] at h
      obtain ⟨hiteration, haction⟩ := ih h
      have hpositive : 0 < protocol.actions.length := by
        rcases hactions : protocol.actions with _ | ⟨action, rest⟩
        · simp [hactions] at haction
        · exact Nat.succ_pos _
      rw [Nat.div_eq_sub_div hpositive (Nat.not_lt.1 hplace), Nat.mod_eq_sub_mod (Nat.not_lt.1 hplace)]
      exact ⟨by omega, haction⟩

/-! What performing an action does. -/

def Step.bindTo (step : Step) (bindings : Table Value) : Table Value :=
  match step.action with
  | .receive _ (some name) => bindings.insert name step.value
  | .receive _ none | .send .. => bindings

theorem Step.get?_bindTo (step : Step) (bindings : Table Value) (name : String) :
    (step.bindTo bindings).get? name =
      if step.binds name then some step.value else bindings.get? name := by
  obtain ⟨iteration, action, value⟩ := step
  cases action with
  | send port payload => simp [bindTo, binds]
  | receive port bind =>
    cases bind with
    | none => simp [bindTo, binds]
    | some bound =>
      by_cases hname : name = bound
      · simp [bindTo, binds, hname]
      · simp [bindTo, binds, hname, Ne.symm hname]

section
variable {σ : Type} (protocol : Protocol) (access : Access σ) (symbols : SymbolTable)

/-- The value that an action yields: what is received, or what the payload amounts to in an environment
that shows the bindings and nothing else. -/
def Yields (bindings : Table Value) (store : σ) : Action → Value → Prop
  | .receive port _, value => value = (access.current store port).getD .unknown
  | .send _ payload, value => ∃ env : Env, env.symbols = symbols ∧
      (∀ name, env.lookup name = (bindings.get? name).map Binding.value) ∧ payload.eval env = .ok value

/-- The store after an action: a send hands its value over, a receive leaves the store as it is. -/
def Stores (store : σ) : Action → Value → σ → Prop
  | .receive .., _, next => next = store
  | .send port _, value, next => access.send store port value = .ok next

variable {protocol access symbols}

theorem perform_spec {step : Step} {bindings next : Table Value} {store later : σ}
    (h : protocol.perform access symbols step.action bindings store = .ok (step.value, next, later)) :
    Yields access symbols bindings store step.action step.value ∧ next = step.bindTo bindings ∧
      Stores access store step.action step.value later := by
  obtain ⟨iteration, action, value⟩ := step
  obtain ⟨_, -, hperformed⟩ := exists_of_bind_ok h
  cases action with
  | receive port bind =>
    cases bind <;> cases hperformed <;> exact ⟨rfl, rfl, rfl⟩
  | send port payload =>
    obtain ⟨sent, heval, hsending⟩ := exists_of_bind_ok hperformed
    obtain ⟨sentTo, hsend, heq⟩ := exists_of_bind_ok hsending
    cases heq
    refine ⟨⟨_, ?_, ?_, heval⟩, rfl, hsend⟩
    · exact Env.symbols_bindAll ..
    · exact Env.lookup_bindAll_toList symbols bindings

variable (protocol access symbols)

/-- Performing the steps one after the other leads from some bindings and a store to others. -/
inductive Performs : List Step → Table Value → σ → Table Value → σ → Prop
  | nil (bindings : Table Value) (store : σ) : Performs [] bindings store bindings store
  | cons {step : Step} {steps : List Step} {bindings next final : Table Value} {store later left : σ}
      (performed : protocol.perform access symbols step.action bindings store =
        .ok (step.value, next, later))
      (rest : Performs steps next later final left) :
      Performs (step :: steps) bindings store final left

variable {protocol access symbols}
variable {steps others : List Step} {bindings middle final : Table Value} {store between left : σ}

theorem Performs.append (h : Performs protocol access symbols steps bindings store middle between)
    (hothers : Performs protocol access symbols others middle between final left) :
    Performs protocol access symbols (steps ++ others) bindings store final left := by
  induction h with
  | nil => exact hothers
  | cons performed _ ih => exact .cons performed (ih hothers)

theorem Performs.yields (h : Performs protocol access symbols steps bindings store final left)
    {place : Nat} {step : Step} (hstep : steps[place]? = some step) :
    ∃ middle between, Performs protocol access symbols (steps.take place) bindings store middle between ∧
      Yields access symbols middle between step.action step.value := by
  induction h generalizing place with
  | nil => simp at hstep
  | @cons first rest bindings _ _ store _ _ performed _ ih =>
    cases place with
    | zero =>
      cases hstep
      exact ⟨bindings, store, .nil _ _, (perform_spec performed).1⟩
    | succ place =>
      obtain ⟨middle, between, hbefore, hyields⟩ := ih hstep
      exact ⟨middle, between, .cons performed hbefore, hyields⟩

/-- A name stands for the last value that was received under it. -/
theorem Performs.get?_bindings (h : Performs protocol access symbols steps bindings store final left)
    (name : String) :
    final.get? name = (latest? (Step.binds name) steps).or (bindings.get? name) := by
  induction h with
  | nil => rfl
  | @cons step _ _ _ _ _ _ _ performed _ ih =>
    rw [ih, latest?_cons, (perform_spec performed).2.1, Step.get?_bindTo, Option.or_assoc]
    cases step.binds name <;> rfl

end

theorem portsAfter_nil (ports : Table Port) : portsAfter ports [] = ports := by
  apply Table.ext_get?
  intro name
  simp [portsAfter, latest?]

/-- A step changes the port that it sends from and no other one. -/
theorem get?_of_stores {step : Step} {ports later : Table Port}
    (h : Stores portTable ports step.action step.value later) (name : String) :
    later.get? name = (ports.get? name).map fun port =>
      if step.sendsFrom name then { port with value := some step.value } else port := by
  obtain ⟨iteration, action, value⟩ := step
  cases action with
  | receive port bind =>
    cases h
    simp [Step.sendsFrom]
  | send source payload =>
    simp only [Stores, portTable] at h
    split at h
    · next port hport =>
      cases h
      rw [Table.get?_insert]
      by_cases hname : name = source
      · simp [Step.sendsFrom, hname, hport]
      · simp [Step.sendsFrom, hname, Ne.symm hname]
    · cases h

/-- A port holds the last value that was sent from it. -/
theorem Performs.ports_eq {protocol : Protocol} {symbols : SymbolTable} {steps : List Step}
    {bindings final : Table Value} {ports left : Table Port}
    (h : Performs protocol portTable symbols steps bindings ports final left) :
    left = portsAfter ports steps := by
  induction h with
  | nil bindings ports => exact (portsAfter_nil ports).symm
  | @cons step steps _ _ _ ports later _ performed _ ih =>
    rw [ih]
    apply Table.ext_get?
    intro name
    have hstores := get?_of_stores (perform_spec performed).2.2 name
    simp only [portsAfter, Table.get?_map, hstores, latest?_cons, Option.map_map]
    congr 1
    funext port
    cases step.sendsFrom name <;> simp

/-! Runs. -/

section
variable {σ : Type} (protocol : Protocol) (access : Access σ) (symbols : SymbolTable)

/-- Part of a run: the steps performed, and what is noted down about them. -/
structure Stretch (steps : List Step) (machine : Machine) (store : σ) (after : Machine) (left : σ) :
    Prop where
  performs : Performs protocol access symbols steps machine.bindings store after.bindings left
  results : after.results = machine.results ++ steps.map Step.result

/-- How part of a run ends: all that was planned has been done, or the next action on the plan fails. -/
inductive Ends (plan : List (Nat × Action)) (steps : List Step) (after : Machine) (left : σ) :
    Except Fault Unit → Prop
  | finished (done : plan = steps.map Step.planned) : Ends plan steps after left (.ok ())
  | stopped {iteration : Nat} {action : Action} {rest : List (Nat × Action)} {fault : Fault}
      (done : plan = steps.map Step.planned ++ (iteration, action) :: rest)
      (phase : after.phase = .running iteration)
      (fails : protocol.perform access symbols action after.bindings left = .error fault) :
      Ends plan steps after left (.error fault)

variable {protocol access symbols} in
/-- Steps that were on the plan do not matter for how the rest of it ends. -/
theorem Ends.prepend {plan : List (Nat × Action)} {later : List Step} {after : Machine} {left : σ}
    {outcome : Except Fault Unit} (h : Ends protocol access symbols plan later after left outcome)
    (steps : List Step) :
    Ends protocol access symbols (steps.map Step.planned ++ plan) (steps ++ later) after left
      outcome := by
  cases h with
  | finished done => exact .finished (by rw [done, List.map_append])
  | @stopped iteration action rest _ done phase fails =>
    have hplan : steps.map Step.planned ++ plan =
        (steps ++ later).map Step.planned ++ (iteration, action) :: rest := by
      rw [done, List.map_append, List.append_assoc]
    exact .stopped hplan phase fails

namespace Machine

theorem runActions_stretch {iteration : Nat} (actions : List Action) (machine : Machine) (store : σ)
    {outcome : Except Fault Unit} {after : Machine} {left : σ}
    (hrun : runActions protocol access symbols iteration actions machine store =
      (outcome, after, left))
    (hphase : machine.phase = .running iteration) :
    ∃ steps, Stretch protocol access symbols steps machine store after left ∧
      Ends protocol access symbols (actions.map (iteration, ·)) steps after left outcome := by
  induction actions generalizing machine store with
  | nil =>
    cases hrun
    exact ⟨[], ⟨.nil _ _, by simp⟩, .finished rfl⟩
  | cons action rest ih =>
    rw [runActions] at hrun
    cases hperform : protocol.perform access symbols action machine.bindings store with
    | error fault =>
      simp only [hperform] at hrun
      cases hrun
      exact ⟨[], ⟨.nil _ _, by simp⟩, .stopped rfl hphase hperform⟩
    | ok done =>
      obtain ⟨value, bindings, next⟩ := done
      simp only [hperform] at hrun
      obtain ⟨steps, hstretch, hends⟩ := ih _ next hrun hphase
      let step : Step := ⟨iteration, action, value⟩
      refine ⟨step :: steps, ⟨.cons hperform hstretch.performs, ?_⟩, hends.prepend [step]⟩
      rw [hstretch.results, List.append_assoc]
      rfl

theorem runFrom_stretch (iteration remaining : Nat) (machine : Machine) (store : σ)
    {outcome : Except Fault Unit} {after : Machine} {left : σ}
    (hrun : runFrom protocol access symbols iteration remaining machine store =
      (outcome, after, left)) :
    ∃ steps, Stretch protocol access symbols steps machine store after left ∧
      Ends protocol access symbols (protocol.unrolledFrom iteration remaining) steps after left outcome ∧
      (outcome = .ok () → after.phase = .done) := by
  induction remaining generalizing iteration machine store with
  | zero =>
    cases hrun
    exact ⟨[], ⟨.nil _ _, by simp⟩, .finished rfl, fun _ => rfl⟩
  | succ remaining ih =>
    rw [runFrom] at hrun
    rcases hactions : runActions protocol access symbols iteration protocol.actions
      { machine with phase := .running iteration } store with ⟨ended, between, next⟩
    obtain ⟨steps, hstretch, hends⟩ := runActions_stretch protocol access symbols protocol.actions _ store
      hactions rfl
    rw [hactions] at hrun
    cases hends with
    | @stopped failed action rest fault done phase fails =>
      cases hrun
      have hplan : protocol.unrolledFrom iteration (remaining + 1) = steps.map Step.planned ++
          (failed, action) :: (rest ++ protocol.unrolledFrom (iteration + 1) remaining) := by
        rw [unrolledFrom, done, List.append_assoc]
        rfl
      exact ⟨steps, ⟨hstretch.performs, hstretch.results⟩, .stopped hplan phase fails, nofun⟩
    | finished done =>
      obtain ⟨later, hlater, hends, hdone⟩ := ih _ _ _ hrun
      refine ⟨steps ++ later, ⟨hstretch.performs.append hlater.performs, ?_⟩, ?_, hdone⟩
      · rw [hlater.results, hstretch.results, List.append_assoc, List.map_append]
      · rw [unrolledFrom, done]
        exact hends.prepend steps

/-- A run performs the beginning of the unrolled list of actions, all of it or as far as to the first
action that fails. -/
theorem run_stretch (machine : Machine) (bound : Nat) (store : σ) {outcome : Except Fault Unit}
    {after : Machine} {left : σ}
    (hrun : machine.run protocol access symbols bound store = (outcome, after, left)) :
    ∃ steps, Stretch protocol access symbols steps machine store after left ∧
      Ends protocol access symbols (protocol.unrolledFrom 0 (protocol.control.iterations bound)) steps
        after left outcome ∧
      (outcome = .ok () → after.phase = .done) :=
  runFrom_stretch protocol access symbols _ _ _ _ hrun

end Machine

/-- The steps are a beginning of the unrolled list of actions: their iterations and actions are those
that their places give. -/
def Follows (steps : List Step) : Prop :=
  ∀ place step, steps[place]? = some step →
    step.iteration = place / protocol.actions.length ∧
      protocol.actions[place % protocol.actions.length]? = some step.action

variable {protocol access symbols}
variable {steps others : List Step} {after : Machine} {left : σ} {outcome : Except Fault Unit}
  {iterations : Nat}

theorem Ends.follows
    (h : Ends protocol access symbols (protocol.unrolledFrom 0 iterations) steps after left outcome) :
    protocol.Follows steps := by
  obtain ⟨rest, hplan⟩ : ∃ rest, protocol.unrolledFrom 0 iterations = steps.map Step.planned ++ rest := by
    cases h with
    | finished done => exact ⟨[], by rw [done, List.append_nil]⟩
    | stopped done => exact ⟨_, done⟩
  intro place step hstep
  have hplanned : (protocol.unrolledFrom 0 iterations)[place]? = some step.planned := by
    have hlt : place < (steps.map Step.planned).length := by
      simpa using (List.getElem?_eq_some_iff.1 hstep).1
    rw [hplan, List.getElem?_append_left hlt, List.getElem?_map, hstep, Option.map_some]
  simpa [Step.planned] using getElem?_unrolledFrom hplanned

theorem Ends.finished_iff
    (h : Ends protocol access symbols (protocol.unrolledFrom 0 iterations) steps after left outcome) :
    (outcome = .ok () ↔ steps.length = iterations * protocol.actions.length) ∧
      ((∃ fault, outcome = .error fault) ↔ steps.length < iterations * protocol.actions.length) := by
  rw [← protocol.length_unrolledFrom 0 iterations]
  cases h with
  | finished done =>
    have hlength : (protocol.unrolledFrom 0 iterations).length = steps.length := by simp [done]
    exact ⟨iff_of_true rfl hlength.symm, iff_of_false nofun (by omega)⟩
  | stopped done =>
    have hlength : steps.length < (protocol.unrolledFrom 0 iterations).length := by
      rw [done]
      simp
    exact ⟨iff_of_false nofun (by omega), iff_of_true ⟨_, rfl⟩ hlength⟩

/-- The action that fails is the one after those that were performed. -/
theorem Ends.failed {fault : Fault}
    (h : Ends protocol access symbols (protocol.unrolledFrom 0 iterations) steps after left
      (.error fault)) :
    after.phase = .running (steps.length / protocol.actions.length) ∧
      ∃ action, protocol.actions[steps.length % protocol.actions.length]? = some action ∧
        protocol.perform access symbols action after.bindings left = .error fault := by
  cases h with
  | @stopped iteration action rest _ done phase fails =>
    have hplanned : (protocol.unrolledFrom 0 iterations)[steps.length]? = some (iteration, action) := by
      rw [done]
      simp
    obtain ⟨hiteration, haction⟩ := getElem?_unrolledFrom hplanned
    rw [Nat.zero_add] at hiteration
    exact ⟨hiteration ▸ phase, action, haction, fails⟩

/-- What was noted down about steps that follow the protocol determines them. -/
theorem Follows.eq_of_results (h : protocol.Follows steps) (hothers : protocol.Follows others)
    (hresults : steps.map Step.result = others.map Step.result) : steps = others := by
  apply List.ext_getElem?
  intro place
  have hresult := congrArg (·[place]?) hresults
  simp only [List.getElem?_map] at hresult
  cases hstep : steps[place]? with
  | none =>
    rw [hstep] at hresult
    cases hother : others[place]? with
    | none => rfl
    | some other => simp [hother] at hresult
  | some step =>
    cases hother : others[place]? with
    | none => simp [hstep, hother] at hresult
    | some other =>
      obtain ⟨hiteration, haction⟩ := h place step hstep
      obtain ⟨hiteration', haction'⟩ := hothers place other hother
      have hvalue : step.value = other.value := by
        simp only [hstep, hother, Option.map_some, Option.some.injEq] at hresult
        exact congrArg Result.value hresult
      have hactions : step.action = other.action :=
        Option.some.inj (haction.symm.trans haction')
      obtain ⟨iteration, action, value⟩ := step
      obtain ⟨iteration', action', value'⟩ := other
      simp_all

end

/-- All steps that a machine has performed since it was new, in runs on stores of any kind. -/
inductive Past (protocol : Protocol) : Machine → List Step → Prop
  | fresh : Past protocol {} []
  | run {σ : Type} {machine after : Machine} {past steps : List Step} {access : Access σ}
      {symbols : SymbolTable} {bound : Nat} {store : σ} (earlier : Past protocol machine past)
      (ran : (machine.run protocol access symbols bound store).2.1 = after)
      (follows : protocol.Follows steps)
      (results : after.results = machine.results ++ steps.map Step.result) :
      Past protocol after (past ++ steps)

/-- The names of a machine stand for what was received under them last, in whatever run it was. -/
theorem Past.get?_bindings {protocol : Protocol} {machine : Machine} {past : List Step}
    (h : Past protocol machine past) (name : String) :
    machine.bindings.get? name = latest? (Step.binds name) past := by
  induction h with
  | fresh => rfl
  | @run σ machine after past steps access symbols bound store _ ran follows results ih =>
    rcases hrun : machine.run protocol access symbols bound store with ⟨outcome, next, left⟩
    rw [hrun] at ran
    cases ran
    obtain ⟨performed, hstretch, hends, -⟩ := Machine.run_stretch protocol access symbols _ _ _ hrun
    have hsame : performed = steps := by
      refine hends.follows.eq_of_results follows ?_
      exact List.append_cancel_left (hstretch.results.symm.trans results)
    rw [hstretch.performs.get?_bindings, hsame, ih, latest?_append]

/-- A run adds the steps that it performs to those that its machine has performed before. -/
theorem Past.exists_run {protocol : Protocol} {machine : Machine} {past : List Step}
    (h : Past protocol machine past) {σ : Type} (access : Access σ) (symbols : SymbolTable)
    (bound : Nat) (store : σ) :
    ∃ steps, Past protocol (machine.run protocol access symbols bound store).2.1 (past ++ steps) := by
  rcases hrun : machine.run protocol access symbols bound store with ⟨outcome, after, left⟩
  obtain ⟨steps, hstretch, hends, -⟩ := Machine.run_stretch protocol access symbols _ _ _ hrun
  exact ⟨steps, .run h (congrArg (·.2.1) hrun) hends.follows hstretch.results⟩

/-- The machines that runs of a protocol lead to, on stores of any kind. -/
inductive Reached (protocol : Protocol) : Machine → Prop
  | fresh : Reached protocol {}
  | run {σ : Type} {machine : Machine} (earlier : Reached protocol machine) (access : Access σ)
      (symbols : SymbolTable) (bound : Nat) (store : σ) :
      Reached protocol (machine.run protocol access symbols bound store).2.1

theorem Reached.exists_past {protocol : Protocol} {machine : Machine} (h : Reached protocol machine) :
    ∃ past, Past protocol machine past := by
  induction h with
  | fresh => exact ⟨[], .fresh⟩
  | run earlier access symbols bound store ih =>
    obtain ⟨past, hpast⟩ := ih
    obtain ⟨steps, hlonger⟩ := hpast.exists_run access symbols bound store
    exact ⟨past ++ steps, hlonger⟩

/-- Bindings after some steps of a run: a name stands for what was received under it last in the run,
or else for what it stood for before, which is what was received under it in earlier runs. -/
structure Recalls (protocol : Protocol) (machine : Machine) (steps : List Step)
    (bindings : Table Value) : Prop where
  run : ∀ name, bindings.get? name =
    (latest? (Step.binds name) steps).or (machine.bindings.get? name)
  past : ∀ past, Past protocol machine past → ∀ name,
    bindings.get? name = latest? (Step.binds name) (past ++ steps)

theorem Performs.recalls {σ : Type} {protocol : Protocol} {access : Access σ} {symbols : SymbolTable}
    {machine : Machine} {steps : List Step} {store left : σ} {final : Table Value}
    (h : Performs protocol access symbols steps machine.bindings store final left) :
    Recalls protocol machine steps final := by
  refine ⟨h.get?_bindings, fun past hpast name => ?_⟩
  rw [h.get?_bindings, hpast.get?_bindings, latest?_append]

/-- What a run comes to that has performed the steps: they follow the protocol, each has yielded its
value on the ports and under the bindings as they were then, and nothing else has changed. The run
succeeds if there are no actions left, and stops in the iteration of the action that fails. -/
structure Account (protocol : Protocol) (machine : Machine) (symbols : SymbolTable) (bound : Nat)
    (ports : Table Port) (steps : List Step) (ran : Except Fault Unit × Machine × Table Port) :
    Prop where
  follows : protocol.Follows steps
  results : ran.2.1.results = machine.results ++ steps.map Step.result
  yields : ∀ place step, steps[place]? = some step → ∃ bindings,
    Recalls protocol machine (steps.take place) bindings ∧
      Yields portTable symbols bindings (portsAfter ports (steps.take place)) step.action step.value
  bindings : Recalls protocol machine steps ran.2.1.bindings
  past : Reached protocol machine →
    ∃ past, Past protocol machine past ∧ Past protocol ran.2.1 (past ++ steps)
  ports : ran.2.2 = portsAfter ports steps
  succeeds : ran.1 = .ok () ↔
    steps.length = protocol.control.iterations bound * protocol.actions.length
  done : ran.1 = .ok () → ran.2.1.phase = .done
  fails : (∃ fault, ran.1 = .error fault) ↔
    steps.length < protocol.control.iterations bound * protocol.actions.length
  failed : ∀ fault, ran.1 = .error fault →
    ran.2.1.phase = .running (steps.length / protocol.actions.length) ∧
      ∃ action, protocol.actions[steps.length % protocol.actions.length]? = some action ∧
        protocol.perform portTable symbols action ran.2.1.bindings ran.2.2 = .error fault

namespace Machine

/-- Every run of a protocol on a table of ports, whatever the machine has done before, performs a
beginning of the unrolled list of actions and nothing else. -/
theorem run_accounted (protocol : Protocol) (machine : Machine) (symbols : SymbolTable) (bound : Nat)
    (ports : Table Port) :
    ∃ steps, Account protocol machine symbols bound ports steps
      (machine.run protocol portTable symbols bound ports) := by
  rcases hrun : machine.run protocol portTable symbols bound ports with ⟨outcome, after, left⟩
  obtain ⟨steps, hstretch, hends, hdone⟩ := run_stretch protocol portTable symbols machine bound ports hrun
  refine ⟨steps, hends.follows, hstretch.results, ?_, hstretch.performs.recalls, ?_,
    hstretch.performs.ports_eq, hends.finished_iff.1, hdone, hends.finished_iff.2, ?_⟩
  · intro place step hstep
    obtain ⟨bindings, between, hbefore, hyields⟩ := hstretch.performs.yields hstep
    rw [hbefore.ports_eq] at hyields
    exact ⟨bindings, hbefore.recalls, hyields⟩
  · intro hreached
    obtain ⟨past, hpast⟩ := hreached.exists_past
    exact ⟨past, hpast, .run hpast (congrArg (·.2.1) hrun) hends.follows hstretch.results⟩
  · intro fault hfault
    cases hfault
    exact hends.failed

/-- A cell is read and doubled until that would be too much, at the fourth action of six. -/
example :
    let protocol : Protocol := {
      name := "doubling", component := none, control := .several
      actions := [.receive "cell" (some "x"),
        .send "cell" (.binary "+" (.variable "x") (.variable "x"))] }
    let ports : Table Port := .ofList [("cell", {
      name := "cell", direction := .both, component := "doubling", type := .integer
      value := some (.int (2 ^ 61)) })]
    let ran := Machine.run {} protocol portTable {} 10 ports
    ran.2.1.phase = .running 1 ∧ ran.2.1.results.map Result.iteration = [0, 0, 1] := by
  decide +kernel

end Machine

end Protocol
end Archflow
