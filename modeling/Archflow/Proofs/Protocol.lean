import Archflow.Protocol.Machine

/-!
Protocols over different stores of ports. What every send of a store preserves, whole runs preserve
(`run_preserves`). A store that is a view of another one shows the same actions, results and faults
(`run_map`); if it is one only as long as all goes well, then so it does for a run that goes well
(`run_tracks`). A check in front of every send cuts a run off at the first value it refuses
(`run_guarded`).
-/
namespace Archflow

/-- A value that an action of the protocol may send from a port, under some bindings. -/
def Protocol.Sends (protocol : Protocol) (symbols : SymbolTable) (port : String) (value : Value) :
    Prop :=
  ∃ payload bindings, Action.send port payload ∈ protocol.actions ∧
    payload.eval ((Env.new symbols).bindAll bindings) = .ok value

namespace Protocol.Machine

variable {σ : Type} {access : Access σ} {holds : σ → Prop} (protocol : Protocol)
  (symbols : SymbolTable)
  (h : ∀ store port value next, protocol.Sends symbols port value →
    access.send store port value = .ok next → holds store → holds next)
include h

theorem perform_preserves {action : Action} {bindings : Table Value} {store : σ}
    {done : Value × Table Value × σ} (haction : action ∈ protocol.actions)
    (hdone : protocol.perform access symbols action bindings store = .ok done) (hstore : holds store) :
    holds done.2.2 := by
  unfold perform at hdone
  cases hpermit : protocol.permit (access.direction store action.port) action.port action.operation with
  | error fault =>
    rw [hpermit] at hdone
    cases hdone
  | ok =>
    rw [hpermit] at hdone
    cases action with
    | receive port bind =>
      cases bind <;> cases hdone <;> exact hstore
    | send port payload =>
      dsimp only [bind, Except.bind] at hdone
      cases heval : payload.eval ((Env.new symbols).bindAll bindings.toList) with
      | error fault =>
        rw [heval] at hdone
        cases hdone
      | ok value =>
        simp only [heval] at hdone
        cases hsend : access.send store port value with
        | error fault =>
          rw [hsend] at hdone
          cases hdone
        | ok next =>
          rw [hsend] at hdone
          cases hdone
          exact h _ _ _ _ ⟨payload, _, haction, heval⟩ hsend hstore

theorem runActions_preserves (iteration : Nat) {actions : List Action}
    (hactions : ∀ action ∈ actions, action ∈ protocol.actions) (machine : Machine) {store : σ}
    (hstore : holds store) :
    holds (runActions protocol access symbols iteration actions machine store).2.2 := by
  induction actions generalizing machine store with
  | nil => exact hstore
  | cons action rest ih =>
    rw [runActions]
    cases hdone : protocol.perform access symbols action machine.bindings store with
    | error fault => exact hstore
    | ok done =>
      obtain ⟨haction, hrest⟩ := List.forall_mem_cons.1 hactions
      exact ih hrest _ (perform_preserves protocol symbols h haction hdone hstore)

theorem runFrom_preserves (iteration remaining : Nat) (machine : Machine) {store : σ}
    (hstore : holds store) :
    holds (runFrom protocol access symbols iteration remaining machine store).2.2 := by
  induction remaining generalizing iteration machine store with
  | zero => exact hstore
  | succ remaining ih =>
    have hactions := runActions_preserves protocol symbols h iteration (fun _ hmem => hmem)
      { machine with phase := .running iteration } hstore
    rw [runFrom]
    rcases hrun : runActions protocol access symbols iteration protocol.actions
      { machine with phase := .running iteration } store with ⟨outcome, machine, store⟩
    rw [hrun] at hactions
    cases outcome with
    | error fault => exact hactions
    | ok => exact ih _ _ hactions

/-- What every successful send preserves, a whole run preserves. -/
theorem run_preserves (bound : Nat) (machine : Machine) {store : σ} (hstore : holds store) :
    holds (machine.run protocol access symbols bound store).2.2 :=
  runFrom_preserves protocol symbols h _ _ _ hstore

end Protocol.Machine

namespace Protocol

variable {σ τ : Type}

def Access.Sendable (access : Access σ) (store : σ) (port : String) : Prop :=
  ∃ direction, access.direction store port = some direction ∧ direction.canSend = true

theorem Access.sendable_of_permit {access : Access σ} {protocol : Protocol} {store : σ} {port : String}
    (h : protocol.permit (access.direction store port) port .send = .ok ()) :
    access.Sendable store port := by
  unfold permit at h
  cases hdirection : access.direction store port with
  | none =>
    rw [hdirection] at h
    cases h
  | some direction =>
    refine ⟨direction, hdirection, ?_⟩
    cases hcan : direction.canSend with
    | true => rfl
    | false => simp [hdirection, hcan] at h

/-- A view of one store of ports as another, for sends that leave the store alive or fail mildly. It
may rely on what sends preserve; a store that is not alive stays so. -/
structure Access.Tracks (f : σ → τ) (access : Access σ) (other : Access τ) (keeps alive : σ → Prop)
    (mild : Fault → Prop) : Prop where
  direction : ∀ store port, keeps store → other.direction (f store) port = access.direction store port
  current : ∀ store port, keeps store → other.current (f store) port = access.current store port
  kept : ∀ store port value next, access.send store port value = .ok next → keeps store → keeps next
  alive_of : ∀ store port value next, access.send store port value = .ok next → alive next → alive store
  send : ∀ store port value, keeps store → access.Sendable store port →
    (∀ next, access.send store port value = .ok next → alive next) →
    (∀ fault, access.send store port value = .error fault → mild fault) →
    other.send (f store) port value = (access.send store port value).map f

variable {f : σ → τ} {access : Access σ} {other : Access τ} {keeps alive : σ → Prop}
  {mild : Fault → Prop} (h : access.Tracks f other keeps alive mild) (protocol : Protocol)
  (symbols : SymbolTable)
include h

theorem perform_tracks {action : Action} {bindings : Table Value} {store : σ} (hkept : keeps store)
    (halive : ∀ done, protocol.perform access symbols action bindings store = .ok done →
      alive done.2.2)
    (hmild : ∀ fault, protocol.perform access symbols action bindings store = .error fault →
      mild fault) :
    protocol.perform other symbols action bindings (f store) =
      (protocol.perform access symbols action bindings store).map
        fun done => (done.1, done.2.1, f done.2.2) := by
  unfold perform at halive hmild ⊢
  rw [h.direction store action.port hkept]
  cases hpermit : protocol.permit (access.direction store action.port) action.port action.operation with
  | error fault => rfl
  | ok =>
    rw [hpermit] at halive hmild
    cases action with
    | receive port bind =>
      simp only [h.current store port hkept]
      cases bind <;> rfl
    | send port payload =>
      dsimp only [bind, Except.bind] at halive hmild ⊢
      cases heval : payload.eval ((Env.new symbols).bindAll bindings.toList) with
      | error fault => rfl
      | ok value =>
        simp only [heval] at halive hmild
        dsimp only
        rw [h.send store port value hkept (Access.sendable_of_permit hpermit) (fun next hsend => ?_)
          fun fault hsend => ?_]
        · cases access.send store port value <;> rfl
        · exact halive (value, bindings, next) (by rw [hsend])
        · exact hmild fault (by rw [hsend])

namespace Machine

theorem runActions_tracks (iteration : Nat) {actions : List Action}
    (hactions : ∀ action ∈ actions, action ∈ protocol.actions) (machine : Machine) {store : σ}
    (hkept : keeps store)
    (halive : alive (runActions protocol access symbols iteration actions machine store).2.2)
    (hmild : ∀ fault,
      (runActions protocol access symbols iteration actions machine store).1 = .error fault →
        mild fault) :
    runActions protocol other symbols iteration actions machine (f store) =
      (runActions protocol access symbols iteration actions machine store).map id (·.map id f) := by
  induction actions generalizing machine store with
  | nil => rfl
  | cons action rest ih =>
    rw [runActions] at halive hmild ⊢
    rw [runActions]
    cases hperform : protocol.perform access symbols action machine.bindings store with
    | error fault =>
      rw [hperform] at hmild
      rw [perform_tracks h protocol symbols hkept (by simp [hperform]) fun other hother => ?_, hperform]
      · rfl
      · cases hperform.symm.trans hother
        exact hmild fault rfl
    | ok done =>
      simp only [hperform] at halive hmild
      obtain ⟨haction, hrest⟩ := List.forall_mem_cons.1 hactions
      have hnext : alive done.2.2 :=
        @runActions_preserves _ access (fun store => alive store → alive done.2.2) protocol symbols
          (fun _ _ _ _ _ hsend hgoes hlive => hgoes (h.alive_of _ _ _ _ hsend hlive))
          iteration rest hrest _ done.2.2 id halive
      rw [perform_tracks h protocol symbols hkept (fun other hother => ?_) (by simp [hperform]),
        hperform]
      · have hkept_next := perform_preserves protocol symbols (fun _ _ _ _ _ => h.kept _ _ _ _) haction
          hperform hkept
        exact ih hrest _ hkept_next halive hmild
      · cases hperform.symm.trans hother
        exact hnext

theorem runFrom_tracks (iteration remaining : Nat) (machine : Machine) {store : σ}
    (hkept : keeps store)
    (halive : alive (runFrom protocol access symbols iteration remaining machine store).2.2)
    (hmild : ∀ fault,
      (runFrom protocol access symbols iteration remaining machine store).1 = .error fault →
        mild fault) :
    runFrom protocol other symbols iteration remaining machine (f store) =
      (runFrom protocol access symbols iteration remaining machine store).map id (·.map id f) := by
  induction remaining generalizing iteration machine store with
  | zero => rfl
  | succ remaining ih =>
    have hactions := runActions_tracks h protocol symbols iteration (fun _ hmem => hmem)
      { machine with phase := .running iteration } hkept
    have hkept_next := runActions_preserves protocol symbols (fun _ _ _ _ _ => h.kept _ _ _ _) iteration
      (fun _ hmem => hmem) { machine with phase := .running iteration } hkept
    rw [runFrom] at halive hmild ⊢
    rw [runFrom]
    rcases hrun : runActions protocol access symbols iteration protocol.actions
      { machine with phase := .running iteration } store with ⟨outcome, after, next⟩
    rw [hrun] at halive hmild hactions hkept_next
    cases outcome with
    | error fault =>
      rw [hactions halive hmild]
      rfl
    | ok =>
      have hnext : alive next :=
        @runFrom_preserves _ access (fun store => alive store → alive next) protocol symbols
          (fun _ _ _ _ _ hsend hgoes hlive => hgoes (h.alive_of _ _ _ _ hsend hlive))
          (iteration + 1) remaining after next id halive
      rw [hactions hnext (by simp)]
      exact ih (iteration + 1) after hkept_next halive hmild

/-- A protocol does the same on two stores of which one tracks the other, in a run that leaves the
store alive and does not fail badly. -/
theorem run_tracks (bound : Nat) (machine : Machine) {store : σ} (hkept : keeps store)
    (halive : alive (machine.run protocol access symbols bound store).2.2)
    (hmild : ∀ fault, (machine.run protocol access symbols bound store).1 = .error fault →
      mild fault) :
    machine.run protocol other symbols bound (f store) =
      (machine.run protocol access symbols bound store).map id (·.map id f) :=
  runFrom_tracks h protocol symbols _ _ _ hkept halive hmild

end Machine

structure Access.Maps (f : σ → τ) (access : Access σ) (other : Access τ) : Prop where
  direction : ∀ store port, other.direction (f store) port = access.direction store port
  current : ∀ store port, other.current (f store) port = access.current store port
  send : ∀ store port value, other.send (f store) port value = (access.send store port value).map f

omit h in
/-- A protocol does the same on two stores of which one is a view of the other. -/
theorem Machine.run_map (h : access.Maps f other) (bound : Nat) (machine : Machine) (store : σ) :
    machine.run protocol other symbols bound (f store) =
      (machine.run protocol access symbols bound store).map id (·.map id f) := by
  have htracks : access.Tracks f other (fun _ => True) (fun _ => True) fun _ => True :=
    ⟨fun store port _ => h.direction store port, fun store port _ => h.current store port, by simp,
      by simp, fun store port value _ _ _ _ => h.send store port value⟩
  exact run_tracks htracks protocol symbols bound machine trivial trivial (by simp)

end Protocol

namespace Protocol

variable {σ : Type}

abbrev Check := String → Value → Except Fault Unit

/-- The same store, with a check in front of every send. -/
def Access.guarded (access : Access σ) (check : Check) : Access σ :=
  { access with
    send := fun store port value => do
      check port value
      access.send store port value }

/-- Whatever is sent from a port that can send is taken. -/
def Access.Lenient (access : Access σ) : Prop :=
  ∀ store port value, access.Sendable store port → ∃ next, access.send store port value = .ok next

namespace Result

/-- What a check says about an action that was performed without it. It is asked about sends only. -/
def vet (check : Check) (result : Result) : Except Fault Unit :=
  match result.operation with
  | .send => check result.port result.value
  | .receive => .ok ()

def passes (check : Check) (result : Result) : Bool := (result.vet check).isOk

def firstRefused? (check : Check) (results : List Result) : Option Result :=
  results.find? fun result => !result.passes check

def accepted (check : Check) (results : List Result) : List Result := results.takeWhile (passes check)

variable {check : Check} {results good rest : List Result} {bad : Result}

theorem firstRefused?_eq_none_iff :
    firstRefused? check results = none ↔ ∀ result ∈ results, result.passes check = true := by
  simp [firstRefused?, List.find?_eq_none]

theorem firstRefused?_split (hgood : ∀ result ∈ good, result.passes check = true)
    (hbad : bad.passes check = false) : firstRefused? check (good ++ bad :: rest) = some bad := by
  rw [firstRefused?, List.find?_eq_some_iff_append]
  exact ⟨by simp [hbad], good, rest, rfl, by simpa using hgood⟩

theorem accepted_split (hgood : ∀ result ∈ good, result.passes check = true)
    (hbad : bad.passes check = false) : accepted check (good ++ bad :: rest) = good := by
  rw [accepted, List.takeWhile_append_of_pos hgood]
  simp [hbad]

theorem vet_of_firstRefused? (h : firstRefused? check results = some bad) :
    ∃ fault, bad.vet check = .error fault := by
  have hbad := List.find?_some h
  unfold passes at hbad
  cases hvet : bad.vet check with
  | ok => simp [hvet, Except.isOk, Except.toBool] at hbad
  | error fault => exact ⟨fault, rfl⟩

theorem firstRefused?_append (h : firstRefused? check results = some bad) (later : List Result) :
    firstRefused? check (results ++ later) = some bad ∧
      accepted check (results ++ later) = accepted check results := by
  rw [firstRefused?, List.find?_eq_some_iff_append] at h
  obtain ⟨hbad, good, rest, rfl, hgood⟩ := h
  replace hgood : ∀ result ∈ good, result.passes check = true := by simpa using hgood
  replace hbad : bad.passes check = false := by simpa using hbad
  rw [List.append_assoc, List.cons_append]
  exact ⟨firstRefused?_split hgood hbad, by rw [accepted_split hgood hbad, accepted_split hgood hbad]⟩

end Result

variable {access : Access σ} (hlenient : access.Lenient) (check : Check) (protocol : Protocol)
  (symbols : SymbolTable)
include hlenient

/-- A check lets an action be performed as without it, or refuses what it sends. -/
theorem perform_guarded (iteration : Nat) (action : Action) (bindings : Table Value) (store : σ) :
    protocol.perform (access.guarded check) symbols action bindings store =
      protocol.perform access symbols action bindings store >>= fun done =>
        (Result.vet check ⟨iteration, action.operation, action.port, done.1⟩).map fun () => done := by
  unfold perform
  have hdirection : (access.guarded check).direction = access.direction := rfl
  rw [hdirection]
  cases hpermit : protocol.permit (access.direction store action.port) action.port action.operation with
  | error fault => rfl
  | ok =>
    cases action with
    | receive port bind => cases bind <;> rfl
    | send port payload =>
      dsimp only [bind, Except.bind]
      cases payload.eval ((Env.new symbols).bindAll bindings.toList) with
      | error fault => rfl
      | ok value =>
        obtain ⟨next, hnext⟩ := hlenient store port value (Access.sendable_of_permit hpermit)
        simp only [Access.guarded, hnext, bind, Except.bind, Result.vet, Action.operation, Action.port]
        cases check port value <;> rfl

namespace Machine

omit hlenient in
theorem results_runActions (iteration : Nat) (actions : List Action) (machine : Machine) (store : σ) :
    ∃ added, (runActions protocol access symbols iteration actions machine store).2.1.results =
      machine.results ++ added := by
  induction actions generalizing machine store with
  | nil => exact ⟨[], by simp [runActions]⟩
  | cons action rest ih =>
    rw [runActions]
    cases protocol.perform access symbols action machine.bindings store with
    | error fault => exact ⟨[], by simp⟩
    | ok done =>
      obtain ⟨added, hadded⟩ := ih _ done.2.2
      exact ⟨_, hadded.trans (List.append_assoc ..)⟩

omit hlenient in
theorem results_runFrom (iteration remaining : Nat) (machine : Machine) (store : σ) :
    ∃ added, (runFrom protocol access symbols iteration remaining machine store).2.1.results =
      machine.results ++ added := by
  induction remaining generalizing iteration machine store with
  | zero => exact ⟨[], by simp [runFrom]⟩
  | succ remaining ih =>
    obtain ⟨added, hadded⟩ := @results_runActions σ access protocol symbols iteration protocol.actions
      { machine with phase := .running iteration } store
    rw [runFrom]
    rcases hrun : runActions protocol access symbols iteration protocol.actions
      { machine with phase := .running iteration } store with ⟨outcome, after, next⟩
    rw [hrun] at hadded
    cases outcome with
    | error fault => exact ⟨added, hadded⟩
    | ok =>
      obtain ⟨later, hlater⟩ := ih (iteration + 1) after next
      refine ⟨added ++ later, ?_⟩
      rw [← List.append_assoc]
      exact hlater.trans (congrArg (· ++ later) hadded)

/-- What becomes of a run under a check: nothing changes if all that is sent passes it; otherwise
the run ends before the first action that is refused. -/
structure Cut (check : Check) (free guarded : Except Fault Unit × Machine × σ) : Prop where
  same : Result.firstRefused? check free.2.1.results = none → guarded = free
  stop : ∀ bad, Result.firstRefused? check free.2.1.results = some bad →
    guarded.1 = bad.vet check ∧ guarded.2.1.results = Result.accepted check free.2.1.results ∧
      guarded.2.1.phase = .running bad.iteration

omit hlenient in
theorem Cut.refl {run : Except Fault Unit × Machine × σ}
    (h : Result.firstRefused? check run.2.1.results = none) : Cut check run run :=
  ⟨fun _ => rfl, fun bad hbad => by simp [h] at hbad⟩

omit hlenient in
theorem Cut.extend {free guarded total : Except Fault Unit × Machine × σ} {bad : Result}
    {later : List Result} (h : Cut check free guarded)
    (hrefused : Result.firstRefused? check free.2.1.results = some bad)
    (hlater : total.2.1.results = free.2.1.results ++ later) : Cut check total guarded := by
  obtain ⟨htotal, haccepted⟩ := Result.firstRefused?_append hrefused later
  rw [← hlater] at htotal haccepted
  refine ⟨fun hnone => ?_, fun other hother => ?_⟩
  · rw [htotal] at hnone
    cases hnone
  · rw [htotal] at hother
    cases hother
    rw [haccepted]
    exact h.stop bad hrefused

theorem runActions_guarded {iteration : Nat} (actions : List Action) {machine : Machine} (store : σ)
    (hphase : machine.phase = .running iteration)
    (hearlier : Result.firstRefused? check machine.results = none) :
    Cut check (runActions protocol access symbols iteration actions machine store)
      (runActions protocol (access.guarded check) symbols iteration actions machine store) := by
  induction actions generalizing machine store with
  | nil => exact .refl check hearlier
  | cons action rest ih =>
    have hperform := perform_guarded hlenient check protocol symbols iteration action machine.bindings
      store
    rw [runActions, runActions, hperform]
    cases hdone : protocol.perform access symbols action machine.bindings store with
    | error fault => exact .refl check hearlier
    | ok done =>
      have hpasses := Result.firstRefused?_eq_none_iff.1 hearlier
      dsimp only [bind, Except.bind]
      cases hvet : Result.vet check ⟨iteration, action.operation, action.port, done.1⟩ with
      | ok =>
        refine ih done.2.2 hphase (Result.firstRefused?_eq_none_iff.2 fun result hmem => ?_)
        rcases List.mem_append.1 hmem with hmem | hmem
        · exact hpasses result hmem
        · rw [List.mem_singleton.1 hmem, Result.passes, hvet]
          rfl
      | error fault =>
        obtain ⟨added, hadded⟩ := @results_runActions σ access protocol symbols iteration rest
          { machine with
            bindings := done.2.1
            results := machine.results ++ [⟨iteration, action.operation, action.port, done.1⟩] } done.2.2
        have hbad : Result.passes check ⟨iteration, action.operation, action.port, done.1⟩ = false := by
          rw [Result.passes, hvet]
          rfl
        rw [List.append_assoc, List.singleton_append] at hadded
        refine ⟨fun hnone => ?_, fun bad hsome => ?_⟩
        · rw [hadded, Result.firstRefused?_split hpasses hbad] at hnone
          cases hnone
        · rw [hadded, Result.firstRefused?_split hpasses hbad] at hsome
          cases hsome
          rw [hadded, Result.accepted_split hpasses hbad]
          exact ⟨hvet.symm, rfl, hphase⟩

theorem runFrom_guarded (iteration remaining : Nat) {machine : Machine} (store : σ)
    (hearlier : Result.firstRefused? check machine.results = none) :
    Cut check (runFrom protocol access symbols iteration remaining machine store)
      (runFrom protocol (access.guarded check) symbols iteration remaining machine store) := by
  induction remaining generalizing iteration machine store with
  | zero => exact .refl check hearlier
  | succ remaining ih =>
    have hactions := @runActions_guarded σ access hlenient check protocol symbols iteration
      protocol.actions { machine with phase := .running iteration } store rfl hearlier
    rw [runFrom, runFrom]
    rcases hfree : runActions protocol access symbols iteration protocol.actions
      { machine with phase := .running iteration } store with ⟨outcome, after, next⟩
    rw [hfree] at hactions
    cases hrefused : Result.firstRefused? check after.results with
    | none =>
      rw [hactions.same hrefused]
      cases outcome with
      | error fault => exact .refl check hrefused
      | ok => exact ih (iteration + 1) next hrefused
    | some bad =>
      obtain ⟨fault, hfault⟩ := Result.vet_of_firstRefused? hrefused
      have hstops := (hactions.stop bad hrefused).1.trans hfault
      rcases hguarded : runActions protocol (access.guarded check) symbols iteration protocol.actions
        { machine with phase := .running iteration } store with ⟨ended, last, final⟩
      rw [hguarded] at hactions hstops
      cases hstops
      cases outcome with
      | error fault => exact hactions
      | ok =>
        obtain ⟨later, hlater⟩ := @results_runFrom σ access protocol symbols (iteration + 1) remaining
          after next
        exact hactions.extend check hrefused hlater

/-- On a store that takes whatever is sent, a check in front of every send cuts a protocol off at
the first value that it refuses, and does nothing else. -/
theorem run_guarded (bound : Nat) (store : σ) :
    Cut check (run {} protocol access symbols bound store)
      (run {} protocol (access.guarded check) symbols bound store) :=
  runFrom_guarded hlenient check protocol symbols _ _ _ rfl

end Machine
end Protocol
end Archflow
