import Archflow.Realization

/-!
Facts about the resolution of allocations: which faults it reports, and which components it gives
activities to. All of them follow from `ofModel_induction`, one step of the resolution at a time.
-/
namespace Archflow.Realization

/-- What every step of the resolution preserves holds of the realization of a model. -/
theorem ofModel_induction {model : Model} {holds : Resolved → Prop}
    (own : holds ({ activities := model.components.map fun _ component => component.activities }, []))
    (executable : ∀ resolved executable action, holds resolved →
      holds (allocateExecutable model resolved executable action))
    (connector : ∀ resolved connector, holds resolved →
      holds (declareConnector resolved.1 connector, resolved.2))
    (activity : ∀ resolved name target, holds resolved →
      holds (allocateActivity model resolved name target)) : holds (ofModel model) := by
  unfold ofModel
  dsimp only
  refine List.foldlRecOn (motive := holds) model.allocations _ ?_ fun resolved h allocation _ => ?_
  · refine List.foldlRecOn (motive := fun realization => holds (realization, _)) _ _ ?_
      fun realization h declared _ => connector (realization, _) declared h
    refine List.foldlRecOn (motive := holds) model.allocations _ own fun resolved h allocation _ => ?_
    cases allocation with
    | activity => exact h
    | executable name action => exact executable resolved name action h
  · cases allocation with
    | executable => exact h
    | activity name target => exact activity resolved name target h

theorem report_not_fatal {resolved : Resolved} (h : ∀ fault ∈ resolved.2, fault.isFatal = false)
    (problem : AllocationFault) : ∀ fault ∈ (report resolved problem).2, fault.isFatal = false := by
  intro fault hmem
  rcases List.mem_append.1 hmem with hmem | hmem
  · exact h fault hmem
  · rw [List.mem_singleton.1 hmem]
    rfl

theorem allocateExecutable_not_fatal (model : Model) {resolved : Resolved} (executable action : String)
    (h : ∀ fault ∈ resolved.2, fault.isFatal = false) :
    ∀ fault ∈ (allocateExecutable model resolved executable action).2, fault.isFatal = false := by
  unfold allocateExecutable
  split
  · exact report_not_fatal h _
  · split
    · exact report_not_fatal h _
    · exact h

theorem allocateActivity_not_fatal (model : Model) {resolved : Resolved} (name target : String)
    (h : ∀ fault ∈ resolved.2, fault.isFatal = false) :
    ∀ fault ∈ (allocateActivity model resolved name target).2, fault.isFatal = false := by
  unfold allocateActivity
  cases model.activities.get? name with
  | none => exact report_not_fatal h _
  | some activity =>
    dsimp only
    cases resolved.1.connectors.get? target with
    | some functions => exact h
    | none =>
      dsimp only
      cases resolved.1.activities.get? target with
      | none => exact report_not_fatal h _
      | some registered =>
        dsimp only
        split <;> exact h

theorem ofModel_not_fatal (model : Model) :
    ∀ fault ∈ (ofModel model).2, fault.isFatal = false :=
  @ofModel_induction model (fun resolved => ∀ fault ∈ resolved.2, fault.isFatal = false) (by simp)
    (fun _ executable action => allocateExecutable_not_fatal model executable action)
    (fun _ _ h => h) (fun _ name target => allocateActivity_not_fatal model name target)

theorem activities_insert_known {realization : Realization} {components : Table Component}
    {target : String} {registered added : List String}
    (h : ∀ name, realization.activities.contains name → components.contains name)
    (htarget : realization.activities.get? target = some registered) (name : String) :
    (realization.activities.insert target added).contains name → components.contains name := by
  unfold Table.contains
  rw [Table.get?_insert]
  split
  · next heq =>
    subst heq
    exact fun _ => h _ (by simp [Table.contains, htarget])
  · exact h name

theorem allocateActivity_known (model : Model) {resolved : Resolved} (name target : String)
    (h : ∀ name, resolved.1.activities.contains name → model.components.contains name) :
    ∀ other, (allocateActivity model resolved name target).1.activities.contains other →
      model.components.contains other := by
  unfold allocateActivity
  cases model.activities.get? name with
  | none => exact h
  | some activity =>
    dsimp only
    cases resolved.1.connectors.get? target with
    | some functions => exact h
    | none =>
      dsimp only
      cases htarget : resolved.1.activities.get? target with
      | none => exact h
      | some registered =>
        dsimp only
        split
        · exact h
        · exact activities_insert_known h htarget

theorem allocateExecutable_activities (model : Model) (resolved : Resolved)
    (executable action : String) :
    (allocateExecutable model resolved executable action).1.activities = resolved.1.activities := by
  unfold allocateExecutable
  split
  · rfl
  · split <;> rfl

/-- Only components of the model have activities. -/
theorem contains_of_activitiesOf {model : Model} {name : String}
    (h : (ofModel model).1.activitiesOf name ≠ []) : model.components.contains name := by
  have hknown := @ofModel_induction model
    (fun resolved => ∀ name, resolved.1.activities.contains name → model.components.contains name)
    (by simp [Table.contains])
    (fun resolved executable action hk other => by
      rw [allocateExecutable_activities]
      exact hk other)
    (fun _ _ hk => hk) (fun _ name target => allocateActivity_known model name target)
  apply hknown
  unfold activitiesOf at h
  unfold Table.contains
  cases hget : (ofModel model).1.activities.get? name with
  | none => simp [hget] at h
  | some registered => rfl

end Archflow.Realization
