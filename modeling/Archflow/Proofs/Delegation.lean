import Archflow.Proofs.Containment
import Archflow.Proofs.Driven
import Archflow.Proofs.Harmless
import Mathlib.Data.List.Nodup

/-!
How far delegations lead. Values that a port receives are passed on inwards, values that it sends are
sent outwards, and each step crosses the border between a component and one that it contains. So in a
valid model no such way meets a component twice, and a limit of one hop less than there are components
is never exceeded (`delegations_within_limit`). Then a port refuses what it receives only on behalf
of a port that the value is passed on to (`refused_by_port`).
-/
namespace Archflow

namespace Model

/-- Ports on a way inwards: what one receives is passed on to the next. -/
def Inward (model : Model) (path : List PortRef) : Prop :=
  path.IsChain fun outer inner => inner ∈ model.delegates outer

/-- Ports on a way outwards: what one sends is sent by the next one too. -/
def Outward (model : Model) (chain : List PortRef) : Prop :=
  chain.IsChain fun inner outer => model.delegatingOuter? inner = some outer

/-- What a port receives is passed on to another port, over so many delegations in a row. -/
inductive PassesOn (model : Model) (ref : PortRef) : (target : PortRef) → (hops : Nat) → Prop
  | itself : PassesOn model ref ref 0
  | further {target inner : PortRef} {hops : Nat} (h : PassesOn model ref target hops)
      (delegated : inner ∈ model.delegates target) : PassesOn model ref inner (hops + 1)

variable {model : Model} {ref target : PortRef} {value : Value}

theorem PassesOn.exists_path {hops : Nat} (h : model.PassesOn ref target hops) :
    ∃ path, model.Inward path ∧ path.head? = some ref ∧ path.getLast? = some target ∧
      path.length = hops + 1 := by
  induction h with
  | itself => exact ⟨[ref], .singleton _, rfl, rfl, rfl⟩
  | @further target inner hops _ hdelegated ih =>
    obtain ⟨path, hinward, hhead, hlast, hlength⟩ := ih
    refine ⟨path ++ [inner], List.isChain_append.2 ⟨hinward, .singleton _, ?_⟩, ?_, ?_, ?_⟩
    · intro outer houter next hnext
      rw [Option.mem_def, hlast] at houter
      cases houter
      cases hnext
      exact hdelegated
    · simp [hhead]
    · simp
    · simp [hlength]

/-! Delegations and containment. -/

/-- A delegation leads to a port of a component that the delegating one contains. -/
theorem delegates_spec (hvalid : model.validate = .ok ()) {outer inner : PortRef}
    (h : inner ∈ model.delegates outer) :
    inner.component ∈ model.children outer.component ∧ ∃ port, model.resolve inner = .ok port := by
  unfold delegates at h
  unfold children
  cases hfound : model.components.get? outer.component with
  | none => simp [hfound] at h
  | some component =>
    rw [hfound] at h
    obtain ⟨delegation, hmem, rfl⟩ := List.mem_map.1 h
    exact (wellFormed_of_validate hvalid hfound).delegated delegation (List.mem_filter.1 hmem).1

theorem child_of_delegatingOuter? (hvalid : model.validate = .ok ()) {inner outer : PortRef}
    (h : model.delegatingOuter? inner = some outer) :
    inner.component ∈ model.children outer.component := by
  obtain ⟨composite, hmem, houter⟩ := List.exists_of_findSome?_eq_some h
  obtain ⟨delegation, hfind, rfl⟩ := Option.map_eq_some_iff.1 houter
  obtain ⟨⟨key, _⟩, hentry, rfl⟩ := List.mem_map.1 hmem
  have hfound := Table.get?_of_mem hentry
  have hwell := wellFormed_of_validate hvalid hfound
  have htest := List.find?_some hfind
  have hinner : delegation.inner = inner := eq_of_beq (Bool.and_eq_true_iff.1 htest).1
  unfold children
  rw [hwell.named, hfound, ← hinner]
  exact (hwell.delegated delegation (List.mem_of_find?_eq_some hfind)).1

theorem Inward.nests (hvalid : model.validate = .ok ()) {path : List PortRef}
    (h : model.Inward path) : model.Nests (path.map PortRef.component) :=
  List.isChain_map_of_isChain _ (fun _ _ hstep => (delegates_spec hvalid hstep).1) h

theorem Outward.nests (hvalid : model.validate = .ok ()) {chain : List PortRef}
    (h : model.Outward chain) : model.Nests (chain.map PortRef.component).reverse :=
  List.isChain_reverse.2
    (List.isChain_map_of_isChain _ (fun _ _ hstep => child_of_delegatingOuter? hvalid hstep) h)

/-! Sending. -/

theorem harmless_resolve (model : Model) (ref : PortRef) : Harmless (model.resolve ref) := by
  unfold resolve
  split
  · simp [Fault.isFatal]
  · split <;> simp [Fault.isFatal]

theorem harmless_checkSend (model : Model) (ref : PortRef) (value : Value) :
    Harmless (model.checkSend ref value) := by
  refine (model.harmless_resolve ref).bind fun port => Harmless.bind ?_ fun _ => ?_
  · unfold Port.checkSend
    split <;> simp [Fault.isFatal]
  · apply SymbolTable.harmless_check

theorem Outward.cons {inner outer : PortRef} {chain : List PortRef} (h : model.Outward chain)
    (hhead : chain.head? = some outer) (houter : model.delegatingOuter? inner = some outer) :
    model.Outward (inner :: chain) := by
  refine List.isChain_cons.2 ⟨fun next hnext => ?_, h⟩
  rw [Option.mem_def, hhead] at hnext
  cases hnext
  exact houter

/-- The ports of a chain are on a way outwards from the first one. -/
theorem outward_of_chainFrom {limit budget : Nat} {chain : List PortRef}
    (h : model.chainFrom limit value budget ref = .ok chain) :
    model.Outward chain ∧ chain.head? = some ref := by
  induction budget generalizing ref chain with
  | zero => cases h
  | succ budget ih =>
    rw [chainFrom] at h
    obtain ⟨_, -, h⟩ := exists_of_bind_ok h
    cases houter : model.delegatingOuter? ref with
    | none =>
      rw [houter] at h
      cases h
      exact ⟨.singleton _, rfl⟩
    | some outer =>
      rw [houter] at h
      obtain ⟨rest, hrest, h⟩ := exists_of_bind_ok h
      cases h
      obtain ⟨houtward, hhead⟩ := ih hrest
      exact ⟨houtward.cons hhead houter, rfl⟩

/-- A chain that exceeds its budget has found a way outwards that is longer than the budget. -/
theorem exists_outward_of_chainFrom {limit budget : Nat}
    (h : ¬ Harmless (model.chainFrom limit value budget ref)) :
    ∃ chain, model.Outward chain ∧ chain.head? = some ref ∧ chain.length = budget + 1 := by
  induction budget generalizing ref with
  | zero => exact ⟨[ref], .singleton _, rfl, rfl⟩
  | succ budget ih =>
    have hcheck := model.harmless_checkSend ref value
    rw [chainFrom] at h
    cases houter : model.delegatingOuter? ref with
    | none =>
      rw [houter] at h
      exact absurd (hcheck.bind fun _ => .ok _) h
    | some outer =>
      rw [houter] at h
      have hrest : ¬ Harmless (model.chainFrom limit value budget outer) := by
        intro hrest
        exact h (hcheck.bind fun _ => hrest.bind fun _ => .ok _)
      obtain ⟨chain, houtward, hhead, hlength⟩ := ih hrest
      exact ⟨ref :: chain, houtward.cons hhead houter, rfl, by simp [hlength]⟩

/-- With a limit of one hop less than there are components, no chain exceeds it. -/
theorem harmless_sendChain (hvalid : model.validate = .ok ()) {limit : Nat}
    (hlimit : model.components.size - 1 ≤ limit) (ref : PortRef) (value : Value) :
    Harmless (model.sendChain limit ref value) := by
  by_contra h
  obtain ⟨chain, houtward, -, hlength⟩ := exists_outward_of_chainFrom h
  have hle := (houtward.nests hvalid).length_le hvalid
  simp only [List.length_reverse, List.length_map] at hle
  omega

/-! Receiving. -/

section
variable {limit hops : Nat} {targets found : List PortRef} {pending rest : List (PortRef × Nat)}
  {fault : Fault}

/-- Pending ports are passed on to from the port that the value came to. -/
def Awaits (model : Model) (ref : PortRef) (pending : List (PortRef × Nat)) : Prop :=
  ∀ entry ∈ pending, model.PassesOn ref entry.1 entry.2

theorem Awaits.further (h : model.Awaits ref ((target, hops) :: rest)) :
    model.Awaits ref ((model.delegates target).map (·, hops + 1) ++ rest) := by
  obtain ⟨htarget, hrest⟩ := List.forall_mem_cons.1 h
  intro entry hmem
  rcases List.mem_append.1 hmem with hmem | hmem
  · obtain ⟨inner, hinner, rfl⟩ := List.mem_map.1 hmem
    exact htarget.further hinner
  · exact hrest entry hmem

/-- A value is refused by a port that it is passed on to, or because the port is too far away. -/
theorem receiveLoop_error (hpending : model.Awaits ref pending)
    (h : model.receiveLoop limit value targets pending = .error fault) :
    ∃ target hops, model.PassesOn ref target hops ∧
      (model.checkReceive target value = .error fault ∨ limit < hops) := by
  fun_induction receiveLoop model limit value targets pending with
  | case1 => cases h
  | case2 targets target hops rest hdeep =>
    exact ⟨target, hops, hpending _ List.mem_cons_self, .inr hdeep⟩
  | case3 targets target hops rest _ other hcheck =>
    cases h
    exact ⟨target, hops, hpending _ List.mem_cons_self, .inl hcheck⟩
  | case4 targets target hops rest _ _ _ ih => exact ih hpending.further h

theorem passesOn_of_receiveLoop (hpending : model.Awaits ref pending)
    (htargets : ∀ target ∈ targets, ∃ hops, model.PassesOn ref target hops)
    (h : model.receiveLoop limit value targets pending = .ok found) :
    ∀ target ∈ found, ∃ hops, model.PassesOn ref target hops := by
  fun_induction receiveLoop model limit value targets pending with
  | case1 targets =>
    cases h
    exact htargets
  | case2 => cases h
  | case3 => cases h
  | case4 targets target hops rest _ _ _ ih =>
    refine ih hpending.further (fun met hmem => ?_) h
    rcases List.mem_append.1 hmem with hmem | hmem
    · exact htargets met hmem
    · rw [List.mem_singleton.1 hmem]
      exact ⟨hops, hpending _ List.mem_cons_self⟩

/-- All ports that a met port delegates to have been met or are pending. -/
def Covers (model : Model) (targets : List PortRef) (pending : List (PortRef × Nat)) : Prop :=
  ∀ target ∈ targets, ∀ inner ∈ model.delegates target, inner ∈ targets ∨ inner ∈ pending.map Prod.fst

/-- The ports that have been met in the end are closed under delegation. -/
theorem closed_of_receiveLoop (hcovers : model.Covers targets pending)
    (h : model.receiveLoop limit value targets pending = .ok found) :
    (∀ target ∈ targets ++ pending.map Prod.fst, target ∈ found) ∧
      ∀ target ∈ found, ∀ inner ∈ model.delegates target, inner ∈ found := by
  fun_induction receiveLoop model limit value targets pending with
  | case1 targets =>
    cases h
    simpa [Covers] using hcovers
  | case2 => cases h
  | case3 => cases h
  | case4 targets target hops rest _ _ _ ih =>
    have hnext : model.Covers (targets ++ [target])
        ((model.delegates target).map (·, hops + 1) ++ rest) := by
      intro met hmet inner hinner
      rcases List.mem_append.1 hmet with hmet | hmet
      · have hmem := hcovers met hmet inner hinner
        simp only [List.map_cons, List.mem_cons] at hmem
        simp only [List.mem_append, List.mem_singleton, List.map_append]
        tauto
      · rw [List.mem_singleton.1 hmet] at hinner
        exact .inr (by simp [hinner])
    obtain ⟨hfound, hclosed⟩ := ih hnext h
    refine ⟨fun met hmem => hfound met ?_, hclosed⟩
    simp only [List.map_cons, List.mem_append, List.mem_cons, List.map_append,
      List.mem_nil_iff, or_false] at hmem ⊢
    tauto

/-- A value that is received reaches the ports it is passed on to, and no others. -/
theorem mem_receiveTargets_iff (h : model.receiveTargets limit ref value = .ok targets) :
    target ∈ targets ↔ ∃ hops, model.PassesOn ref target hops := by
  constructor
  · refine passesOn_of_receiveLoop ?_ (by simp) h target
    exact List.forall_mem_singleton.2 .itself
  · rintro ⟨hops, hpasses⟩
    have hcovers : model.Covers [] [(ref, 0)] := fun _ hmem => nomatch hmem
    obtain ⟨hfound, hclosed⟩ := closed_of_receiveLoop hcovers h
    induction hpasses with
    | itself => exact hfound ref (by simp)
    | further _ hdelegated ih => exact hclosed _ ih _ hdelegated

/-- No port is further away than there are other components. -/
theorem PassesOn.hops_le (hvalid : model.validate = .ok ()) (h : model.PassesOn ref target hops) :
    hops ≤ model.components.size - 1 := by
  obtain ⟨path, hinward, -, -, hlength⟩ := h.exists_path
  have hle := (hinward.nests hvalid).length_le hvalid
  simp only [List.length_map] at hle
  omega

/-- With a limit of one hop less than there are components, it is a port that refuses a value. -/
theorem exists_of_receiveTargets_error (hvalid : model.validate = .ok ())
    (hlimit : model.components.size - 1 ≤ limit)
    (h : model.receiveTargets limit ref value = .error fault) :
    ∃ target hops, model.PassesOn ref target hops ∧ model.checkReceive target value = .error fault := by
  obtain ⟨target, hops, hpasses, hcheck | hdeep⟩ :=
    receiveLoop_error (List.forall_mem_singleton.2 .itself) h
  · exact ⟨target, hops, hpasses, hcheck⟩
  · have hle := hpasses.hops_le hvalid
    omega

theorem harmless_checkReceive (model : Model) (ref : PortRef) (value : Value) :
    Harmless (model.checkReceive ref value) := by
  refine (model.harmless_resolve ref).bind fun port => Harmless.bind ?_ fun _ => ?_
  · unfold Port.checkReceive
    split <;> simp [Fault.isFatal]
  · apply SymbolTable.harmless_check

theorem harmless_receiveTargets (hvalid : model.validate = .ok ())
    (hlimit : model.components.size - 1 ≤ limit) (ref : PortRef) (value : Value) :
    Harmless (model.receiveTargets limit ref value) := by
  intro fault h
  obtain ⟨target, _, -, hcheck⟩ := exists_of_receiveTargets_error hvalid hlimit h
  exact model.harmless_checkReceive target value fault hcheck

/-- The port that a value is passed on to is there. -/
theorem PassesOn.resolves (hvalid : model.validate = .ok ())
    (h : model.PassesOn ref target (hops + 1)) : ∃ port, model.resolve target = .ok port := by
  cases h with
  | further _ hdelegated => exact (delegates_spec hvalid hdelegated).2

/-- A port of a valid model refuses a value for its direction or for its type, in this order. -/
theorem checkReceive_error (hvalid : model.validate = .ok ()) {port : Port}
    (hport : model.resolve ref = .ok port)
    (h : model.checkReceive ref value = .error fault) :
    (port.direction = .output ∧ fault = .invalidDirection ref.text "out" "receive") ∨
    (port.direction.canReceive = true ∧ model.symbols.conforms value port.type = false ∧
      fault = .typeMismatch (.nonconforming (.port ref) port.type value)) := by
  have href := ref_of_resolve hvalid hport
  have hcheck : model.checkReceive ref value =
      (port.checkReceive >>= fun _ => port.checkPayload model.symbols value) := by
    rw [checkReceive, hport]
    rfl
  rw [hcheck] at h
  unfold Port.checkReceive at h
  rw [href] at h
  split at h
  · next hopen =>
    have hrefused : model.symbols.check value port.type (.port port.ref) = .error fault := h
    unfold SymbolTable.check at hrefused
    rw [href] at hrefused
    split at hrefused
    · cases hrefused
    · next hunfit =>
      cases hrefused
      exact .inr ⟨hopen, Bool.eq_false_iff.2 hunfit, rfl⟩
  · next hclosed =>
    have houtput : port.direction = .output := by
      cases hdirection : port.direction <;> simp [hdirection, Direction.canReceive] at hclosed ⊢
    rw [houtput] at h
    cases h
    exact .inl ⟨houtput, rfl⟩

end

end Model

/-- A panel whose line stands for the level of a dial, which the dial only sends. -/
def panel : Model where
  name := "panel"
  components := .ofList [
    ("panel", {
      name := "panel"
      ports := [⟨"line", .both, "panel", .integer, none⟩]
      subcomponents := ["dial"]
      delegations := [⟨"line", ⟨"dial", "level"⟩⟩] }),
    ("dial", {
      name := "dial"
      ports := [⟨"level", .output, "dial", .integer, none⟩] })]

namespace Simulation

/-! Simulations under a limit that is large enough. -/

theorem send_fst (sim : Simulation) (port : PortRef) (value : Value) :
    (sim.send port value).1 = (sim.model.sendChain sim.limit port value).map fun _ => () := by
  unfold send
  cases sim.model.sendChain sim.limit port value <;> rfl

theorem receive_fst (sim : Simulation) (port : PortRef) (value : Value) :
    (sim.receive port value).1 = (sim.model.receiveTargets sim.limit port value).map fun _ => () := by
  unfold receive
  cases sim.model.receiveTargets sim.limit port value <;> rfl

theorem harmless_transformed (sim : Simulation) (transform : Option String) (raw : Value) :
    Harmless (sim.transformed transform raw).1 := by
  cases transform with
  | none => exact .ok raw
  | some name =>
    unfold transformed runTransform
    dsimp only
    split
    · simp [Fault.isFatal]
    · next exe _ =>
      split
      · next hfault => exact Harmless.error_iff.2 (exe.harmless_run _ _ _ hfault)
      · simp [Fault.isFatal]
      · apply Harmless.ok

theorem harmless_checkCarried (sim : Simulation) (link : Link) (constraint : Option String)
    (raw carried : Value) : Harmless (sim.checkCarried link constraint raw carried) := by
  refine Harmless.bind (Harmless.forM (fun name => ?_) constraint) fun _ => ?_
  · unfold checkConstraint
    split
    · simp [Fault.isFatal]
    · apply Constraint.harmless_check
  · apply SymbolTable.harmless_check

/-- No delegation leads further than the limit allows. -/
structure Roomy (sim : Simulation) : Prop where
  outwards : ∀ port value, Harmless (sim.model.sendChain sim.limit port value)
  inwards : ∀ port value, Harmless (sim.model.receiveTargets sim.limit port value)

namespace Roomy

variable {sim : Simulation} (h : Roomy sim)
include h

theorem harmless_send (port : PortRef) (value : Value) : Harmless (sim.send port value).1 := by
  rw [send_fst]
  exact (h.outwards port value).map _

theorem harmless_receive (port : PortRef) (value : Value) : Harmless (sim.receive port value).1 := by
  rw [receive_fst]
  exact (h.inwards port value).map _

theorem harmless_deliver (delivery : Delivery) : Harmless (sim.deliver delivery).1 := by
  unfold deliver
  cases sim.wiring.links[delivery.link]? with
  | none => simp [Fault.isFatal]
  | some link =>
    have hran := (sim.transformed_cases (sim.functionsOf link).transform delivery.value).1
    have hmade := harmless_transformed sim (sim.functionsOf link).transform delivery.value
    dsimp only
    generalize sim.transformed (sim.functionsOf link).transform delivery.value = made at hran hmade ⊢
    obtain ⟨carried, ran⟩ := made
    cases carried with
    | error fault => exact hmade.error
    | ok carried =>
      dsimp only
      split
      · next hfault => exact Harmless.error_iff.2 (harmless_checkCarried ran link _ _ _ _ hfault)
      · have hroomy : Roomy ran := by
          refine ⟨?_, ?_⟩
          · rw [hran.model, hran.limit]
            exact h.outwards
          · rw [hran.model, hran.limit]
            exact h.inwards
        exact hroomy.harmless_receive link.target carried

theorem harmless_emit (firing : Firing) (result : Option Value) :
    Harmless (sim.emit firing result).1 := by
  have hchain (value : Value) : Harmless (sim.resultChain firing value) := by
    unfold resultChain
    split
    · apply h.outwards
    · apply Harmless.ok
  unfold emit
  cases firing.outputKey with
  | none => exact .ok ()
  | some key =>
    cases result with
    | none => exact .ok ()
    | some value =>
      dsimp only
      split
      · next hfault => exact Harmless.error_iff.2 (hchain value _ hfault)
      · apply Harmless.ok

/-- What keeps a firing from being executed is a computation that fails or a chain that is refused. -/
theorem harmless_execute (firing : Firing) : Harmless (sim.execute firing).1 := by
  have hconstraint : Harmless (sim.constraintOf firing) := by
    unfold constraintOf
    split
    · apply Harmless.ok
    · split <;> simp [Fault.isFatal]
  have hcompute (exe : Executable) (constraint : Option Constraint) :
      Harmless (sim.compute firing exe constraint) :=
    (Harmless.forM (fun _ => Constraint.harmless_requireIf _ _ _) constraint).bind
      fun _ => exe.harmless_run _ _
  have hresult (ran : Simulation) (constraint : Option Constraint) (result : Option Value) :
      Harmless (ran.checkResult firing constraint result) :=
    Harmless.forM (fun _ => Constraint.harmless_requireIf _ _ _) constraint
  unfold execute
  cases sim.model.executables.get? firing.executable with
  | none => simp [Fault.isFatal]
  | some exe =>
    cases hfound : sim.constraintOf firing with
    | error fault => exact Harmless.error_iff.2 (hconstraint fault hfound)
    | ok constraint =>
      dsimp only
      cases hcomputed : sim.compute firing exe constraint with
      | error fault => exact Harmless.error_iff.2 (hcompute exe constraint fault hcomputed)
      | ok result =>
        let ran := sim.record firing.executable .exec (some (exe.callRecord firing.args)) result
        have hran : Roomy ran := ⟨h.outwards, h.inwards⟩
        dsimp only
        split
        · next hfault => exact Harmless.error_iff.2 (hresult ran constraint result _ hfault)
        · exact hran.harmless_emit firing result

/-- A protocol may send until the run has halted. -/
theorem halted_of_access {component port : String} {value : Value} {limit : Nat}
    (hlimit : (componentAccess component).send sim port value = .error (.cascadeLimitExceeded limit)) :
    sim.halted = true := by
  have hsend := h.harmless_send ⟨component, port⟩ value
  dsimp only [componentAccess] at hlimit
  split at hlimit
  · next hhalted => exact hhalted
  · split at hlimit
    · next hfault =>
      cases hlimit
      rw [hfault] at hsend
      cases hsend _ rfl
    · cases hlimit

end Roomy

/-- The simulations that operations on a model lead to, those in the midst of an operation
included. -/
inductive Reached (model : Model) (config : Config) : Simulation → Prop
  | after (operations : List Operation) : Reached model config (after model config operations)
  | during {operations : List Operation} {operation : Operation} {moment : Moment}
      (passed : moment ∈ operation.history model config (Simulation.after model config operations)) :
      Reached model config moment.sim

theorem Reached.alike {model : Model} {config : Config} {sim : Simulation}
    (h : Reached model config sim) : Alike (.new model config) sim := by
  cases h with
  | after operations => exact alike_after model config operations
  | @during operations operation moment hpassed =>
    have hstart : Alike (.new model config)
        (operation.start model config (Simulation.after model config operations)) :=
      operation.start_of (Alike (.new model config)) (.refl _) (alike_after model config operations)
    exact hstart.trans ((operation.leads model config _).alike.2 moment hpassed)

theorem Reached.roomy {model : Model} {config : Config} {sim : Simulation}
    (h : Reached model config sim) (hvalid : model.validate = .ok ())
    (hlimit : model.components.size - 1 ≤ config.maxCascadeDepth) : Roomy sim := by
  refine ⟨fun port value => ?_, fun port value => ?_⟩
  · rw [h.alike.sendChain_eq]
    exact Model.harmless_sendChain hvalid hlimit port value
  · rw [h.alike.receiveTargets_eq]
    exact Model.harmless_receiveTargets hvalid hlimit port value

/-- What a simulation never fails with: an exceeded limit, whatever it is to send, receive, deliver
or execute. A protocol gets such an answer only from a run that has halted before. -/
structure Unlimited (sim : Simulation) : Prop where
  send : ∀ port value limit, (sim.send port value).1 ≠ .error (.cascadeLimitExceeded limit)
  receive : ∀ port value limit, (sim.receive port value).1 ≠ .error (.cascadeLimitExceeded limit)
  deliver : ∀ delivery limit, (sim.deliver delivery).1 ≠ .error (.cascadeLimitExceeded limit)
  execute : ∀ firing limit, (sim.execute firing).1 ≠ .error (.cascadeLimitExceeded limit)
  access : ∀ component port value limit,
    (componentAccess component).send sim port value = .error (.cascadeLimitExceeded limit) →
      sim.halted = true

theorem Roomy.unlimited {sim : Simulation} (h : Roomy sim) : Unlimited sim where
  send port value := (h.harmless_send port value).ne_limit
  receive port value := (h.harmless_receive port value).ne_limit
  deliver delivery := (h.harmless_deliver delivery).ne_limit
  execute firing := (h.harmless_execute firing).ne_limit
  access _ _ _ _ := h.halted_of_access

/-- Containment rules out delegations that exceed the limit. In a valid model no way outwards and no
way inwards meets a component twice. If the limit allows one hop less than there are components,
then nothing that is sent, received or delivered in any reachable simulation exceeds it. The ports
that send are on a way outwards, and the ports that receive are at the ends of ways inwards. -/
theorem delegations_within_limit {model : Model} {config : Config} (hvalid : model.validate = .ok ())
    (hlimit : model.components.size - 1 ≤ config.maxCascadeDepth) :
    (∀ chain, model.Outward chain → (chain.map PortRef.component).Nodup) ∧
    (∀ path, model.Inward path → (path.map PortRef.component).Nodup) ∧
    ∀ sim, Reached model config sim →
      Unlimited sim ∧
      (∀ port value chain, sim.model.sendChain sim.limit port value = .ok chain →
        model.Outward chain ∧ chain.head? = some port) ∧
      ∀ port value targets, sim.model.receiveTargets sim.limit port value = .ok targets →
        ∀ target ∈ targets, ∃ path, model.Inward path ∧ path.head? = some port ∧
          path.getLast? = some target := by
  refine ⟨fun chain h => ?_, fun path h => (h.nests hvalid).nodup hvalid, fun sim hreached => ?_⟩
  · exact List.nodup_reverse.1 ((h.nests hvalid).nodup hvalid)
  refine ⟨(hreached.roomy hvalid hlimit).unlimited, fun port value chain h => ?_, ?_⟩
  · rw [hreached.alike.sendChain_eq] at h
    exact Model.outward_of_chainFrom h
  · intro port value targets h target hmem
    rw [hreached.alike.receiveTargets_eq] at h
    obtain ⟨hops, hpasses⟩ := (Model.mem_receiveTargets_iff h).1 hmem
    obtain ⟨path, hinward, hhead, hlast, -⟩ := hpasses.exists_path
    exact ⟨path, hinward, hhead, hlast⟩

theorem delegations_within_limit_panel :
    panel.validate = .ok () ∧ panel.components.size - 1 = 1 ∧
      Unlimited (after panel { maxCascadeDepth := 1 } [.send ⟨"dial", "level"⟩ (.int 3)]) := by
  have hvalid : panel.validate = .ok () := by decide +kernel
  have hsize : panel.components.size - 1 = 1 := by decide +kernel
  exact ⟨hvalid, hsize, ((delegations_within_limit hvalid hsize.le).2.2 _ (.after _)).1⟩

/-- What becomes of a value that a port of a valid model receives, if it can receive at all and the
limit allows one hop less than there are components. The value is received if all ports that it is
passed on to accept it. Else it is refused by one of them: for its type, or because a port further
inwards only sends. -/
theorem refused_by_port {model : Model} {config : Config} {sim : Simulation} {ref : PortRef}
    {port : Port} (hvalid : model.validate = .ok ())
    (hlimit : model.components.size - 1 ≤ config.maxCascadeDepth) (hreached : Reached model config sim)
    (hport : model.resolve ref = .ok port) (hopen : port.direction.canReceive = true) (value : Value) :
    ((sim.receive ref value).1 = .ok () ∧
      ∀ target hops, model.PassesOn ref target hops → model.checkReceive target value = .ok ()) ∨
    (∃ target hops reached, model.PassesOn ref target hops ∧ model.resolve target = .ok reached ∧
      reached.direction.canReceive = true ∧ model.symbols.conforms value reached.type = false ∧
      (sim.receive ref value).1 =
        .error (.typeMismatch (.nonconforming (.port target) reached.type value))) ∨
    ∃ target hops reached, model.PassesOn ref target (hops + 1) ∧ model.resolve target = .ok reached ∧
      reached.direction = .output ∧
      (sim.receive ref value).1 = .error (.invalidDirection target.text "out" "receive") := by
  rw [receive_fst, hreached.alike.receiveTargets_eq]
  cases htargets : model.receiveTargets config.maxCascadeDepth ref value with
  | ok targets =>
    refine .inl ⟨rfl, fun target hops hpasses => ?_⟩
    exact Model.checked_of_receiveTargets htargets target
      ((Model.mem_receiveTargets_iff htargets).2 ⟨hops, hpasses⟩)
  | error fault =>
    obtain ⟨target, hops, hpasses, hcheck⟩ :=
      Model.exists_of_receiveTargets_error hvalid hlimit htargets
    cases hops with
    | zero =>
      -- The port itself can receive, so it can only object to the type.
      cases hpasses
      rcases Model.checkReceive_error hvalid hport hcheck with ⟨houtput, -⟩ | ⟨-, hunfit, rfl⟩
      · simp [houtput, Direction.canReceive] at hopen
      · exact .inr (.inl ⟨ref, 0, port, .itself, hport, hopen, hunfit, rfl⟩)
    | succ hops =>
      obtain ⟨reached, hresolves⟩ := hpasses.resolves hvalid
      rcases Model.checkReceive_error hvalid hresolves hcheck with
        ⟨houtput, rfl⟩ | ⟨hable, hunfit, rfl⟩
      · exact .inr (.inr ⟨target, hops, reached, hpasses, hresolves, houtput, rfl⟩)
      · exact .inr (.inl ⟨target, hops + 1, reached, hpasses, hresolves, hable, hunfit, rfl⟩)

theorem refused_by_port_panel :
    panel.validate = .ok () ∧
      ∃ target hops, panel.PassesOn ⟨"panel", "line"⟩ target (hops + 1) ∧
        ((after panel {} []).receive ⟨"panel", "line"⟩ (.int 1)).1 =
          .error (.invalidDirection target.text "out" "receive") := by
  have hvalid : panel.validate = .ok () := by decide +kernel
  have hlimit : panel.components.size - 1 ≤ ({} : Config).maxCascadeDepth := by decide +kernel
  have hport : panel.resolve ⟨"panel", "line"⟩ = .ok ⟨"line", .both, "panel", .integer, none⟩ := rfl
  have hkind : ((after panel {} []).receive ⟨"panel", "line"⟩ (.int 1)).1.mapError Fault.kind =
      .error .invalidDirection := by decide +kernel
  refine ⟨hvalid, ?_⟩
  rcases refused_by_port hvalid hlimit (.after []) hport rfl (.int 1) with
    ⟨hreceived, -⟩ | ⟨_, _, _, -, -, -, -, hunfit⟩ | ⟨target, hops, _, hpasses, -, -, hrefused⟩
  · rw [hreceived] at hkind
    cases hkind
  · rw [hunfit] at hkind
    cases hkind
  · exact ⟨target, hops, hpasses, hrefused⟩

/-- In a valid model under a large limit, a port that can receive may still refuse a value of its
type, for the direction of a port that it passes the value on to. -/
theorem line_refused :
    panel.validate = .ok () ∧ panel.components.size - 1 ≤ ({} : Config).maxCascadeDepth ∧
      panel.resolve ⟨"panel", "line"⟩ = .ok ⟨"line", .both, "panel", .integer, none⟩ ∧
      Direction.both.canReceive = true ∧
      ((new panel {}).receive ⟨"panel", "line"⟩ (.int 1)).1 =
        .error (.invalidDirection "dial.level" "out" "receive") := by
  refine ⟨?_, ?_, rfl, rfl, ?_⟩
  · decide +kernel
  · decide +kernel
  · decide +kernel

end Simulation
end Archflow
