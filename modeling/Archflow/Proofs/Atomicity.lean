import Archflow.Proofs.Driven

/-!
Failures change nothing. A value is refused before any port takes it, so a simulation in which an
operation fails is the one before the operation, apart from the record of an executable that has run
and of the failure itself.
-/
namespace Archflow.Simulation

section
variable {sim after : Simulation} {fault : Fault}

/-- A delivery that fails leaves at most the record of its transform. -/
theorem deliver_error {delivery : Delivery} (h : sim.deliver delivery = (.error fault, after)) :
    Ran (sim.transformOf delivery) sim after := by
  rcases sim.deliver_cases delivery with
    ⟨other, ran, hdeliver, hran, _⟩ | ⟨link, carried, targets, ran, _, _, _, hdeliver, _⟩
  · rw [hdeliver] at h
    cases h
    exact hran
  · rw [hdeliver] at h
    cases h

theorem emit_error {firing : Firing} {result : Option Value}
    (h : sim.emit firing result = (.error fault, after)) : after = sim := by
  unfold emit at h
  cases hkey : firing.outputKey with
  | none => simp [hkey] at h
  | some key =>
    cases result with
    | none => simp [hkey] at h
    | some value =>
      simp only [hkey] at h
      cases hchain : sim.resultChain firing value with
      | ok chain => simp [hchain] at h
      | error other =>
        simp only [hchain] at h
        cases h
        rfl

/-- A firing that fails leaves at most the record of its executable: the result is entered in the
state and sent only after all ports that it leaves from have accepted it. -/
theorem execute_error {firing : Firing} (h : sim.execute firing = (.error fault, after)) :
    Ran (some firing.executable) sim after := by
  unfold execute at h
  cases hexe : sim.model.executables.get? firing.executable with
  | none =>
    simp only [hexe] at h
    cases h
    exact .inl rfl
  | some exe =>
    simp only [hexe] at h
    cases hconstraint : sim.constraintOf firing with
    | error other =>
      simp only [hconstraint] at h
      cases h
      exact .inl rfl
    | ok constraint =>
      simp only [hconstraint] at h
      cases hcompute : sim.compute firing exe constraint with
      | error other =>
        simp only [hcompute] at h
        cases h
        exact .inl rfl
      | ok result =>
        simp only [hcompute] at h
        -- From here on the executable has run, and its call is on record.
        cases hresult : checkResult (sim.record firing.executable .exec
          (some (exe.callRecord firing.args)) result) firing constraint result with
        | error other =>
          simp only [hresult] at h
          cases h
          exact .inr ⟨firing.executable, _, _, rfl, rfl⟩
        | ok =>
          simp only [hresult] at h
          rw [emit_error h]
          exact .inr ⟨firing.executable, _, _, rfl, rfl⟩

/-- A value from outside that is turned down in a run that goes on leaves one failure on record. -/
theorem sendToPort_refused {qualified : String} {value : Value}
    (h : (sim.sendToPort qualified value).1 = false)
    (hlive : (sim.sendToPort qualified value).2.halted = false) :
    ∃ fault, (sim.sendToPort qualified value).2 =
      { sim with
        halted := false
        trace := sim.trace.recordFault qualified .log (some value) fault } := by
  unfold sendToPort at h hlive ⊢
  cases hsubmit : submit { sim with halted := false } qualified value with
  | mk outcome submitted =>
    rw [hsubmit] at h hlive
    cases outcome with
    | ok =>
      have hhalted : submitted.drain.halted = true := by simpa using h
      rw [show submitted.drain.halted = false from hlive] at hhalted
      cases hhalted
    | error fault =>
      obtain ⟨rfl, _⟩ := submit_error hsubmit
      refine ⟨fault, ?_⟩
      cases hfatal : fault.isFatal with
      | true => simp [fail, halt, hfatal] at hlive
      | false => simp [fail, hfatal]

end

/-- Failures are atomic: a reception or a send that fails changes nothing, a delivery or a firing
that fails leaves at most the record of the executable it has run, and a value from outside that is
turned down leaves one failure on record, unless the run halts. -/
theorem failures_atomic (sim : Simulation) :
    (∀ port value fault, (sim.receive port value).1 = .error fault →
      (sim.receive port value).2 = sim) ∧
    (∀ port value fault, (sim.send port value).1 = .error fault → (sim.send port value).2 = sim) ∧
    (∀ delivery fault, (sim.deliver delivery).1 = .error fault →
      Ran (sim.transformOf delivery) sim (sim.deliver delivery).2) ∧
    (∀ firing fault, (sim.execute firing).1 = .error fault →
      Ran (some firing.executable) sim (sim.execute firing).2) ∧
    ∀ qualified value, (sim.sendToPort qualified value).1 = false →
      (sim.sendToPort qualified value).2.halted = false →
      ∃ fault, (sim.sendToPort qualified value).2 =
        { sim with
          halted := false
          trace := sim.trace.recordFault qualified .log (some value) fault } := by
  refine ⟨fun port value fault h => ?_, fun port value fault h => ?_, fun delivery fault h => ?_,
    fun firing fault h => ?_, fun qualified value h hlive => sendToPort_refused h hlive⟩
  · exact (receive_error (Prod.ext h rfl)).1
  · exact (send_error (Prod.ext h rfl)).1
  · exact deliver_error (Prod.ext h rfl)
  · exact execute_error (Prod.ext h rfl)

/-- A relay with a connector that makes a text of every value, which the sink does not accept. -/
def skewed : Model :=
  { relay with
    connectors := .ofList [("wire", {
      name := "wire"
      flows := [⟨⟨"source", "out"⟩, ⟨"sink", "in"⟩, .any⟩]
      transform := some "tag" })]
    executables := .ofList [("tag", {
      name := "tag"
      params := [⟨"x", .boolean, none⟩]
      returns := .text
      body := [.ret (.const (.text "on"))] })] }

/-- A firing whose result the port that it is sent from does not accept. -/
def mistyped : Firing :=
  ⟨"source", "label", "tag", none, [.bool true], some "out", some ⟨"source", "out"⟩⟩

theorem exists_fault {outcome : Except Fault Unit} (h : outcome.isOk = false) :
    ∃ fault, outcome = .error fault := by
  cases outcome with
  | ok => cases h
  | error fault => exact ⟨fault, rfl⟩

theorem failures_atomic_skewed :
    ((new skewed {}).receive ⟨"sink", "in"⟩ (.text "on")).2 = new skewed {} ∧
      ((new skewed {}).send ⟨"source", "out"⟩ (.text "on")).2 = new skewed {} ∧
      Ran (some "tag") (new skewed {}) ((new skewed {}).deliver ⟨0, .bool true⟩).2 ∧
      Ran (some "tag") (new skewed {}) ((new skewed {}).execute mistyped).2 ∧
      ∃ fault, ((new skewed {}).sendToPort "source.out" (.text "on")).2 =
        { new skewed {} with
          halted := false
          trace := Trace.recordFault {} "source.out" .log (some (.text "on")) fault } := by
  obtain ⟨hreceive, hsend, hdeliver, hexecute, hport⟩ := failures_atomic (new skewed {})
  obtain ⟨received, hreceived⟩ := @exists_fault
    ((new skewed {}).receive ⟨"sink", "in"⟩ (.text "on")).1 (by decide +kernel)
  obtain ⟨sent, hsent⟩ := @exists_fault
    ((new skewed {}).send ⟨"source", "out"⟩ (.text "on")).1 (by decide +kernel)
  obtain ⟨delivered, hdelivered⟩ := @exists_fault
    ((new skewed {}).deliver ⟨0, .bool true⟩).1 (by decide +kernel)
  obtain ⟨executed, hexecuted⟩ := @exists_fault ((new skewed {}).execute mistyped).1 (by decide +kernel)
  refine ⟨hreceive _ _ _ hreceived, hsend _ _ _ hsent, hdeliver _ _ hdelivered,
    hexecute _ _ hexecuted, hport _ _ ?_ ?_⟩
  · decide +kernel
  · decide +kernel

end Archflow.Simulation
