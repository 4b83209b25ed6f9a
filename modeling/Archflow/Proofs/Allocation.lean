import Archflow.Realization
import Mathlib.Data.List.Induction

/-!
What the allocations of a model come to. The realization of a model is made in three passes, and
agrees with what the list of allocations says on rereading: of several executables behind an action
the last one counts, a connector that lacks a function takes the first one that an activity offers,
and a component performs its own activities and then those given to it, each once
(`allocations_reread`). Executables and activities can be mixed in the list in any way
(`ofModel_eq_of_filter_eq`).
-/
namespace Archflow

def Allocation.isExecutable : Allocation → Bool
  | .executable .. => true
  | .activity .. => false

namespace Model

def HasAction (model : Model) (action : String) : Prop :=
  ∃ activity ∈ model.activities.items, ∃ other ∈ activity.actions, other.name = action

instance (model : Model) (action : String) : Decidable (model.HasAction action) :=
  inferInstanceAs (Decidable (∃ _ ∈ _, _))

def Resolvable (model : Model) : Allocation → Prop
  | .executable executable action => model.executables.contains executable ∧ model.HasAction action
  | .activity activity target =>
      model.activities.contains activity ∧
        (model.connectors.contains target ∨ model.components.contains target)

instance (model : Model) : DecidablePred model.Resolvable
  | .executable .. => inferInstanceAs (Decidable (_ ∧ _))
  | .activity .. => inferInstanceAs (Decidable (_ ∧ (_ ∨ _)))

def backs? (model : Model) (action : String) : Allocation → Option String
  | .executable executable target =>
      if target = action ∧ model.Resolvable (.executable executable target) then some executable
      else none
  | .activity .. => none

/-- The executables that some allocations put behind an action, in order. -/
def executablesBehind (model : Model) (allocations : List Allocation) (action : String) : List String :=
  allocations.filterMap (model.backs? action)

def gives? (model : Model) (target : String) : Allocation → Option String
  | .activity activity other =>
      if other = target ∧ model.activities.contains activity then some activity else none
  | .executable .. => none

def activitiesOn (model : Model) (allocations : List Allocation) (target : String) : List String :=
  allocations.filterMap (model.gives? target)

def firstAction? (model : Model) (activity : String) : Option Action :=
  (model.activities.get? activity).bind fun found => found.actions.head?

/-- The functions of a connector: what it declares, or else the first that an activity given to it
offers with its first action. -/
def functionsFrom (model : Model) (allocations : List Allocation) (name : String)
    (connector : Connector) : ConnectorFunctions where
  transform := connector.transform.or <|
    (model.activitiesOn allocations name).findSome? fun activity =>
      (model.firstAction? activity).bind fun action =>
        (model.executablesBehind model.allocations action.name).getLast?
  constraint := connector.constraint.or <|
    (model.activitiesOn allocations name).findSome? fun activity =>
      (model.firstAction? activity).bind Action.constraint

/-- The activities of a component: its own ones, and then those given to it that it does not have
already. What is given to a name that connectors have too goes to the connector. -/
def activitiesFrom (model : Model) (allocations : List Allocation) (name : String)
    (component : Component) : List String :=
  if model.connectors.contains name then component.activities
  else component.activities ++
    ((model.activitiesOn allocations name).filter (· ∉ component.activities)).eraseDups

def missing (model : Model) : Allocation → AllocationFault
  | .executable executable action =>
      if model.executables.contains executable then .actionMissing action executable
      else .executableMissing executable action
  | .activity activity target =>
      if model.activities.contains activity then .targetMissing activity target
      else .activityMissing activity target

/-- One report for each of the allocations that cannot be resolved, in order. -/
def reports (model : Model) (allocations : List Allocation) : List Fault :=
  (allocations.filter fun allocation => ¬ model.Resolvable allocation).map fun allocation =>
    .missingAllocation (model.missing allocation)

/-! One more allocation. -/

section
variable (model : Model) (seen : List Allocation)

theorem executablesBehind_concat (allocation : Allocation) (action : String) :
    model.executablesBehind (seen ++ [allocation]) action =
      model.executablesBehind seen action ++ (model.backs? action allocation).toList := by
  rw [executablesBehind, List.filterMap_append]
  cases h : model.backs? action allocation <;> simp [executablesBehind, h]

theorem activitiesOn_concat (allocation : Allocation) (target : String) :
    model.activitiesOn (seen ++ [allocation]) target =
      model.activitiesOn seen target ++ (model.gives? target allocation).toList := by
  rw [activitiesOn, List.filterMap_append]
  cases h : model.gives? target allocation <;> simp [activitiesOn, h]

theorem gives?_self {model : Model} {activity target : String} {found : Activity}
    (h : model.activities.get? activity = some found) :
    model.gives? target (.activity activity target) = some activity := by
  simp [gives?, Table.contains, h]

theorem gives?_of_ne {model : Model} {activity target name : String} (h : name ≠ target) :
    model.gives? name (.activity activity target) = none := by
  rw [gives?, if_neg fun hthis => h hthis.1.symm]

theorem functionsFrom_concat_of_gives?_eq_none {allocation : Allocation} {name : String}
    (h : model.gives? name allocation = none) :
    model.functionsFrom (seen ++ [allocation]) name = model.functionsFrom seen name := by
  funext connector
  rw [functionsFrom, functionsFrom, activitiesOn_concat, h, Option.toList_none, List.append_nil]

theorem activitiesFrom_concat_of_gives?_eq_none {allocation : Allocation} {name : String}
    (h : model.gives? name allocation = none) :
    model.activitiesFrom (seen ++ [allocation]) name = model.activitiesFrom seen name := by
  funext component
  rw [activitiesFrom, activitiesFrom, activitiesOn_concat, h, Option.toList_none, List.append_nil]

/-- Another activity is put behind the others, unless the component has it already. -/
theorem activitiesFrom_concat {allocation : Allocation} {name activity : String}
    (hconnector : ¬ model.connectors.contains name)
    (h : model.gives? name allocation = some activity) (component : Component) :
    model.activitiesFrom (seen ++ [allocation]) name component =
      let registered := model.activitiesFrom seen name component
      if registered.contains activity then registered else registered ++ [activity] := by
  simp only [activitiesFrom, if_neg hconnector]
  rw [activitiesOn_concat, h, Option.toList_some, List.filter_append, List.eraseDups_append,
    ← List.append_assoc]
  by_cases hown : activity ∈ component.activities
  · simp [hown]
  · by_cases hgiven : activity ∈ model.activitiesOn seen name
    · simp [hown, hgiven, List.removeAll]
    · simp [hown, hgiven, List.removeAll, List.eraseDups_cons]

theorem reports_append (rest : List Allocation) :
    model.reports (seen ++ rest) = model.reports seen ++ model.reports rest := by
  rw [reports, List.filter_append, List.map_append, reports, reports]

end

end Model

namespace Realization

open Model

/-- One step of the first pass. -/
def readExecutable (model : Model) (resolved : Resolved) : Allocation → Resolved
  | .executable executable action => allocateExecutable model resolved executable action
  | .activity .. => resolved

/-- One step of the third pass. -/
def readActivity (model : Model) (resolved : Resolved) : Allocation → Resolved
  | .activity activity target => allocateActivity model resolved activity target
  | .executable .. => resolved

def own (model : Model) : Realization where
  activities := model.components.map fun _ component => component.activities

/-- The first two passes. -/
def declared (model : Model) : Resolved :=
  let first := model.allocations.foldl (readExecutable model) (own model, [])
  (model.connectors.items.foldl declareConnector first.1, first.2)

theorem ofModel_eq (model : Model) :
    ofModel model = model.allocations.foldl (readActivity model) (declared model) := by
  unfold ofModel declared readExecutable readActivity own
  rfl

theorem actionExists_iff {model : Model} {action : String} :
    actionExists model action = true ↔ model.HasAction action := by
  simp [actionExists, HasAction]

/-! The first pass: executables. -/

section
variable {model : Model} {seen : List Allocation} {resolved : Resolved}

theorem allocateExecutable_eq (model : Model) (resolved : Resolved) (executable action : String) :
    allocateExecutable model resolved executable action =
      if model.Resolvable (.executable executable action) then
        ({ resolved.1 with
            executables := resolved.1.executables.insert action executable
            referenced := executable :: resolved.1.referenced }, resolved.2)
      else report resolved (model.missing (.executable executable action)) := by
  unfold allocateExecutable
  by_cases hexecutable : model.executables.contains executable = true
  · by_cases haction : model.HasAction action
    · simp [Resolvable, hexecutable, haction, actionExists_iff.2 haction]
    · simp [Resolvable, missing, hexecutable, haction, mt actionExists_iff.1 haction]
  · simp [Resolvable, missing, hexecutable]

/-- What has become of the realization once some allocations have been read for their executables. -/
structure ExecutablesRead (model : Model) (seen : List Allocation) (resolved : Resolved) : Prop where
  executables : ∀ action,
    resolved.1.executables.get? action = (model.executablesBehind seen action).getLast?
  referenced : ∀ executable, executable ∈ resolved.1.referenced ↔
    ∃ action, .executable executable action ∈ seen ∧ model.Resolvable (.executable executable action)
  connectors : resolved.1.connectors = ∅
  activities : resolved.1.activities = model.components.map fun _ component => component.activities
  problems : resolved.2 = model.reports (seen.filter Allocation.isExecutable)

theorem ExecutablesRead.concat (h : ExecutablesRead model seen resolved) (allocation : Allocation) :
    ExecutablesRead model (seen ++ [allocation]) (readExecutable model resolved allocation) := by
  cases allocation with
  | activity name target =>
    rw [readExecutable]
    refine ⟨fun action => ?_, fun executable => ?_, h.connectors, h.activities, ?_⟩
    · simpa [executablesBehind_concat, backs?] using h.executables action
    · simpa using h.referenced executable
    · simpa [Allocation.isExecutable] using h.problems
  | executable executable action =>
    have hfilter : (seen ++ [Allocation.executable executable action]).filter Allocation.isExecutable =
        seen.filter Allocation.isExecutable ++ [.executable executable action] := by
      rw [List.filter_append]
      rfl
    rw [readExecutable, allocateExecutable_eq]
    split
    · next hresolvable =>
      refine ⟨fun other => ?_, fun other => ?_, h.connectors, h.activities, ?_⟩
      · rw [Table.get?_insert, executablesBehind_concat, h.executables]
        by_cases hother : other = action
        · simp [backs?, hother, hresolvable]
        · simp [backs?, hother, Ne.symm hother]
      · have hthis : (∃ target, (other = executable ∧ target = action) ∧
            model.Resolvable (.executable other target)) ↔ other = executable :=
          ⟨fun ⟨_, hsame, _⟩ => hsame.1, fun hsame => ⟨action, ⟨hsame, rfl⟩, hsame ▸ hresolvable⟩⟩
        rw [List.mem_cons, h.referenced]
        simp only [List.mem_append, List.mem_singleton, Allocation.executable.injEq, or_and_right,
          exists_or, hthis]
        exact or_comm
      · rw [hfilter, reports_append, ← h.problems]
        simp [reports, hresolvable]
    · next hnot =>
      refine ⟨fun other => ?_, fun other => ?_, h.connectors, h.activities, ?_⟩
      · rw [executablesBehind_concat, backs?, if_neg (fun hthis => hnot hthis.2), Option.toList_none,
          List.append_nil]
        exact h.executables other
      · have hthis : ¬ ∃ target, (other = executable ∧ target = action) ∧
            model.Resolvable (.executable other target) := by
          rintro ⟨target, ⟨rfl, rfl⟩, hresolvable⟩
          exact hnot hresolvable
        simp only [List.mem_append, List.mem_singleton, Allocation.executable.injEq, or_and_right,
          exists_or, hthis, or_false]
        exact h.referenced other
      · rw [hfilter, reports_append, ← h.problems]
        simp [report, reports, hnot]

theorem executablesRead (model : Model) (seen : List Allocation) :
    ExecutablesRead model seen (seen.foldl (readExecutable model) (own model, [])) := by
  induction seen using List.reverseRecOn with
  | nil => exact ⟨fun _ => rfl, by simp [own], rfl, rfl, rfl⟩
  | append_singleton seen allocation ih =>
    rw [List.foldl_append, List.foldl_cons, List.foldl_nil]
    exact ih.concat allocation

end

/-! The second pass: connectors with the functions that they declare. -/

section
variable (connectors : List Connector) (realization : Realization)

theorem executables_declareConnectors :
    (connectors.foldl declareConnector realization).executables = realization.executables := by
  induction connectors generalizing realization with
  | nil => rfl
  | cons connector rest ih => exact ih (declareConnector realization connector)

theorem activities_declareConnectors :
    (connectors.foldl declareConnector realization).activities = realization.activities := by
  induction connectors generalizing realization with
  | nil => rfl
  | cons connector rest ih => exact ih (declareConnector realization connector)

theorem connectors_declareConnectors :
    (connectors.foldl declareConnector realization).connectors =
      realization.connectors.insertAll (connectors.map fun connector =>
        (connector.name, ⟨connector.transform, connector.constraint⟩)) := by
  induction connectors generalizing realization with
  | nil => rfl
  | cons connector rest ih => exact ih (declareConnector realization connector)

theorem mem_referenced_declareConnectors (executable : String) :
    executable ∈ (connectors.foldl declareConnector realization).referenced ↔
      (∃ connector ∈ connectors, connector.transform = some executable) ∨
        executable ∈ realization.referenced := by
  induction connectors generalizing realization with
  | nil => simp
  | cons connector rest ih =>
    rw [List.foldl_cons, ih]
    simp only [declareConnector, List.mem_append, Option.mem_toList, List.mem_cons,
      exists_eq_or_imp]
    rw [or_left_comm, or_assoc]

end

theorem get?_declared {connectors : Table Connector} (hkeyed : connectors.Keyed Connector.name)
    (name : String) :
    (Table.insertAll (∅ : Table ConnectorFunctions) (connectors.items.map fun connector =>
        (connector.name, ⟨connector.transform, connector.constraint⟩))).get? name =
      (connectors.get? name).map fun connector => ⟨connector.transform, connector.constraint⟩ := by
  let functions (connector : Connector) : ConnectorFunctions :=
    ⟨connector.transform, connector.constraint⟩
  have hpairs : (connectors.items.map fun connector => (connector.name, functions connector)) =
      (connectors.map fun _ => functions).entries := by
    simp only [Table.items, Table.map, List.map_map]
    refine List.map_congr_left fun entry hmem => ?_
    simp [hkeyed entry.1 entry.2 (Table.get?_of_mem hmem)]
  have hnone : (∅ : Table ConnectorFunctions).get? name = none := rfl
  rw [hpairs, Table.get?_insertAll, hnone, Option.or_none, ← Table.get?_map _ fun _ => functions]
  refine Option.ext fun found => ?_
  rw [Table.get?_ofList_eq_some_iff (Table.ordered _).nodup_keys]
  exact ⟨Table.get?_of_mem, Entries.mem_of_lookup⟩

/-! The third pass: activities. -/

section
variable {model : Model} {seen : List Allocation} {resolved : Resolved}

structure ActivitiesRead (model : Model) (seen : List Allocation) (resolved : Resolved) : Prop where
  executables : ∀ action, resolved.1.executables.get? action =
    (model.executablesBehind model.allocations action).getLast?
  referenced : ∀ executable, executable ∈ resolved.1.referenced ↔
    (∃ connector ∈ model.connectors.items, connector.transform = some executable) ∨
      ∃ action, .executable executable action ∈ model.allocations ∧
        model.Resolvable (.executable executable action)
  connectors : ∀ name, resolved.1.connectors.get? name =
    (model.connectors.get? name).map (model.functionsFrom seen name)
  activities : ∀ name, resolved.1.activities.get? name =
    (model.components.get? name).map (model.activitiesFrom seen name)
  problems : resolved.2 = model.reports (model.allocations.filter Allocation.isExecutable) ++
    model.reports (seen.filter fun allocation => !allocation.isExecutable)

theorem activitiesRead_nil (hkeyed : model.connectors.Keyed Connector.name) :
    ActivitiesRead model [] (declared model) := by
  have hfirst := executablesRead model model.allocations
  unfold declared
  refine ⟨fun action => ?_, fun executable => ?_, fun name => ?_, fun name => ?_, ?_⟩
  · rw [executables_declareConnectors, hfirst.executables]
  · rw [mem_referenced_declareConnectors, hfirst.referenced]
  · rw [connectors_declareConnectors, hfirst.connectors, get?_declared hkeyed]
    exact congrArg (Option.map · _) (funext fun connector => by simp [functionsFrom, activitiesOn])
  · rw [activities_declareConnectors, hfirst.activities, Table.get?_map]
    exact congrArg (Option.map · _) (funext fun component => by simp [activitiesFrom, activitiesOn])
  · rw [hfirst.problems]
    simp [reports]

theorem ActivitiesRead.problems_concat (h : ActivitiesRead model seen resolved)
    (allocation : Allocation) :
    model.reports (model.allocations.filter Allocation.isExecutable) ++
        model.reports ((seen ++ [allocation]).filter fun a => !a.isExecutable) =
      resolved.2 ++ model.reports ([allocation].filter fun a => !a.isExecutable) := by
  rw [h.problems, List.filter_append, reports_append, List.append_assoc]

theorem ActivitiesRead.problems_of_resolvable (h : ActivitiesRead model seen resolved)
    {allocation : Allocation} (hresolvable : model.Resolvable allocation) :
    resolved.2 = model.reports (model.allocations.filter Allocation.isExecutable) ++
      model.reports ((seen ++ [allocation]).filter fun a => !a.isExecutable) := by
  rw [h.problems_concat]
  simp [reports, hresolvable]

/-- An allocation that gives nothing to a connector or a component adds at most a report. -/
theorem ActivitiesRead.skip (h : ActivitiesRead model seen resolved) {allocation : Allocation}
    (hgives : ∀ name, model.connectors.contains name ∨ model.components.contains name →
      model.gives? name allocation = none)
    {problems : List Fault}
    (hproblems : problems = resolved.2 ++ model.reports ([allocation].filter fun a => !a.isExecutable)) :
    ActivitiesRead model (seen ++ [allocation]) (resolved.1, problems) := by
  refine ⟨h.executables, h.referenced, fun name => ?_, fun name => ?_, ?_⟩
  · rw [h.connectors]
    refine Option.map_congr fun connector hfound => ?_
    rw [functionsFrom_concat_of_gives?_eq_none _ _ (hgives name (.inl (Option.isSome_of_mem hfound)))]
  · rw [h.activities]
    refine Option.map_congr fun component hfound => ?_
    rw [activitiesFrom_concat_of_gives?_eq_none _ _ (hgives name (.inr (Option.isSome_of_mem hfound)))]
  · rw [h.problems_concat, hproblems]

section
variable {activity target : String} {found : Activity}

/-- Where the executables behind the actions are known, another activity fills what is missing. -/
theorem fillFunctions_functionsFrom {realization : Realization}
    (hexecutables : ∀ action, realization.executables.get? action =
      (model.executablesBehind model.allocations action).getLast?)
    (hactivity : model.activities.get? activity = some found) (connector : Connector) :
    realization.fillFunctions found (model.functionsFrom seen target connector) =
      model.functionsFrom (seen ++ [.activity activity target]) target connector := by
  have hfirst : model.firstAction? activity = found.actions.head? := by
    rw [firstAction?, hactivity, Option.bind_some]
  rw [functionsFrom, functionsFrom, activitiesOn_concat, gives?_self hactivity]
  simp only [fillFunctions, hexecutables, Option.orElse_eq_orElse, Option.orElse_eq_or,
    Option.toList_some, List.findSome?_append, List.findSome?_singleton, hfirst, Option.or_assoc]

theorem ActivitiesRead.giveConnector (h : ActivitiesRead model seen resolved)
    (hactivity : model.activities.get? activity = some found) {connector : Connector}
    (hconnector : model.connectors.get? target = some connector) :
    ActivitiesRead model (seen ++ [.activity activity target])
      ({ resolved.1 with
          connectors := resolved.1.connectors.insert target
            (resolved.1.fillFunctions found (model.functionsFrom seen target connector)) },
        resolved.2) := by
  have hresolvable : model.Resolvable (.activity activity target) := by
    simp [Resolvable, Table.contains, hactivity, hconnector]
  refine ⟨h.executables, h.referenced, fun name => ?_, fun name => ?_,
    h.problems_of_resolvable hresolvable⟩
  · rw [Table.get?_insert, fillFunctions_functionsFrom h.executables hactivity, h.connectors]
    by_cases hname : name = target
    · rw [if_pos hname, hname, hconnector, Option.map_some]
    · rw [if_neg hname, functionsFrom_concat_of_gives?_eq_none _ _ (gives?_of_ne hname)]
  · rw [h.activities]
    refine Option.map_congr fun component _ => ?_
    by_cases hname : name = target
    · simp [activitiesFrom, Table.contains, hname, hconnector]
    · rw [activitiesFrom_concat_of_gives?_eq_none _ _ (gives?_of_ne hname)]

/-- A component has one more activity in the list under its name, or the same list as before. -/
theorem ActivitiesRead.giveComponent (h : ActivitiesRead model seen resolved)
    (hactivity : model.activities.get? activity = some found)
    (hconnector : model.connectors.get? target = none) {component : Component}
    (hcomponent : model.components.get? target = some component) {activities : Table (List String)}
    (hactivities : ∀ name, activities.get? name =
      if name = target then
        let registered := model.activitiesFrom seen target component
        some (if registered.contains activity then registered else registered ++ [activity])
      else resolved.1.activities.get? name) :
    ActivitiesRead model (seen ++ [.activity activity target])
      ({ resolved.1 with activities }, resolved.2) := by
  have hnone : ¬ model.connectors.contains target := by simp [Table.contains, hconnector]
  have hresolvable : model.Resolvable (.activity activity target) := by
    simp [Resolvable, Table.contains, hactivity, hcomponent]
  refine ⟨h.executables, h.referenced, fun name => ?_, fun name => ?_,
    h.problems_of_resolvable hresolvable⟩
  · rw [h.connectors]
    by_cases hname : name = target
    · rw [hname, hconnector, Option.map_none, Option.map_none]
    · rw [functionsFrom_concat_of_gives?_eq_none _ _ (gives?_of_ne hname)]
  · rw [hactivities, h.activities]
    by_cases hname : name = target
    · rw [if_pos hname, hname, hcomponent, Option.map_some,
        activitiesFrom_concat _ _ hnone (gives?_self hactivity)]
    · rw [if_neg hname, activitiesFrom_concat_of_gives?_eq_none _ _ (gives?_of_ne hname)]

end

theorem ActivitiesRead.concat (h : ActivitiesRead model seen resolved) (allocation : Allocation) :
    ActivitiesRead model (seen ++ [allocation]) (readActivity model resolved allocation) := by
  cases allocation with
  | executable executable action =>
    exact h.skip (fun _ _ => rfl) (by simp [Allocation.isExecutable, reports])
  | activity activity target =>
    rw [readActivity, allocateActivity]
    cases hactivity : model.activities.get? activity with
    | none =>
      refine h.skip (fun name _ => ?_) ?_
      · simp [gives?, Table.contains, hactivity]
      · simp [reports, Allocation.isExecutable, Resolvable, missing, Table.contains, hactivity]
    | some found =>
      simp only [h.connectors, h.activities]
      cases hconnector : model.connectors.get? target with
      | some connector => exact h.giveConnector hactivity hconnector
      | none =>
        cases hcomponent : model.components.get? target with
        | some component =>
          dsimp only [Option.map_none, Option.map_some]
          split
          · next hregistered =>
            refine h.giveComponent hactivity hconnector hcomponent fun name => ?_
            dsimp only
            rw [if_pos hregistered]
            split
            · next hname => rw [hname, h.activities, hcomponent, Option.map_some]
            · rfl
          · next hregistered =>
            refine h.giveComponent hactivity hconnector hcomponent fun name => ?_
            dsimp only
            rw [if_neg hregistered, Table.get?_insert]
        | none =>
          refine h.skip (fun name hpresent => gives?_of_ne fun hname => ?_) ?_
          · simp [Table.contains, hname, hconnector, hcomponent] at hpresent
          · simp [reports, Allocation.isExecutable, Resolvable, missing, Table.contains, hactivity,
              hconnector, hcomponent]

theorem activitiesRead (hkeyed : model.connectors.Keyed Connector.name) (seen : List Allocation) :
    ActivitiesRead model seen (seen.foldl (readActivity model) (declared model)) := by
  induction seen using List.reverseRecOn with
  | nil => exact activitiesRead_nil hkeyed
  | append_singleton seen allocation ih =>
    rw [List.foldl_append, List.foldl_cons, List.foldl_nil]
    exact ih.concat allocation

end

/-! Only executables are read in the first pass, and only activities in the third. -/

theorem foldl_readExecutable (model : Model) (allocations : List Allocation) (resolved : Resolved) :
    allocations.foldl (readExecutable model) resolved =
      (allocations.filter Allocation.isExecutable).foldl (readExecutable model) resolved := by
  induction allocations generalizing resolved with
  | nil => rfl
  | cons allocation rest ih => cases allocation <;> exact ih _

theorem foldl_readActivity (model : Model) (allocations : List Allocation) (resolved : Resolved) :
    allocations.foldl (readActivity model) resolved =
      (allocations.filter fun a => !a.isExecutable).foldl (readActivity model) resolved := by
  induction allocations generalizing resolved with
  | nil => rfl
  | cons allocation rest ih => cases allocation <;> exact ih _

/-- How the executables and the activities are mixed in the list makes no difference. -/
theorem ofModel_eq_of_filter_eq {model : Model} {allocations : List Allocation}
    (hexecutables : allocations.filter Allocation.isExecutable =
      model.allocations.filter Allocation.isExecutable)
    (hactivities : (allocations.filter fun a => !a.isExecutable) =
      model.allocations.filter fun a => !a.isExecutable) :
    ofModel { model with allocations } = ofModel model := by
  have hexecutable : readExecutable { model with allocations } = readExecutable model := by
    funext resolved allocation
    cases allocation <;> rfl
  have hactivity : readActivity { model with allocations } = readActivity model := by
    funext resolved allocation
    cases allocation <;> rfl
  have hdeclared : declared { model with allocations } = declared model := by
    unfold declared
    rw [hexecutable, foldl_readExecutable, hexecutables, ← foldl_readExecutable]
    rfl
  rw [ofModel_eq, ofModel_eq, hactivity, hdeclared, foldl_readActivity, hactivities,
    ← foldl_readActivity]

/-- The realization is what the list of allocations says. Of the executables behind an action the
last one counts; connectors and components take what activities offer in the order of the list; and
there is one report for every allocation that cannot be resolved, about executables first. -/
theorem allocations_reread {model : Model} (hkeyed : model.connectors.Keyed Connector.name) :
    let realization := (ofModel model).1
    (∀ action, realization.executableFor? action =
      (model.executablesBehind model.allocations action).getLast?) ∧
    (∀ name, realization.functionsOf? name =
      (model.connectors.get? name).map (model.functionsFrom model.allocations name)) ∧
    (∀ name, realization.activitiesOf name =
      ((model.components.get? name).map (model.activitiesFrom model.allocations name)).getD []) ∧
    (∀ executable, realization.isReferenced executable = true ↔
      (∃ connector ∈ model.connectors.items, connector.transform = some executable) ∨
        ∃ action, .executable executable action ∈ model.allocations ∧
          model.Resolvable (.executable executable action)) ∧
    (ofModel model).2 = model.reports (model.allocations.filter Allocation.isExecutable ++
      model.allocations.filter fun a => !a.isExecutable) ∧
    ∀ allocations,
      allocations.filter Allocation.isExecutable = model.allocations.filter Allocation.isExecutable →
      (allocations.filter fun a => !a.isExecutable) =
        (model.allocations.filter fun a => !a.isExecutable) →
      ofModel { model with allocations } = ofModel model := by
  have hread : ActivitiesRead model model.allocations (ofModel model) := by
    rw [ofModel_eq]
    exact activitiesRead hkeyed model.allocations
  refine ⟨hread.executables, hread.connectors, fun name => ?_, fun executable => ?_, ?_,
    fun allocations => ofModel_eq_of_filter_eq⟩
  · rw [activitiesOf, hread.activities]
  · rw [isReferenced, List.contains_iff_mem]
    exact hread.referenced executable
  · rw [hread.problems, reports_append]

/-- A pump that sends through a line, with two executables for one action, activities that have no
action to offer, some given twice and some to nothing. -/
def plant : Model where
  name := "plant"
  components := .ofList [("pump", { name := "pump", activities := ["run"] })]
  connectors := .ofList [("line", { name := "line" })]
  activities := .ofList [
    ("run", { name := "run", actions := [⟨"turn", none⟩] }),
    ("rest", { name := "rest" }),
    ("check", { name := "check", actions := [⟨"look", some "Level"⟩, ⟨"turn", some "Speed"⟩] })]
  executables := .ofList [
    ("Slow", { name := "Slow", params := [], returns := .any, body := [] }),
    ("Fast", { name := "Fast", params := [], returns := .any, body := [] })]
  allocations := [.activity "rest" "line", .executable "Slow" "turn", .activity "check" "line",
    .activity "check" "pump", .executable "Fast" "turn", .activity "run" "line",
    .activity "run" "pump", .activity "check" "pump", .activity "rest" "tank",
    .executable "Slow" "jump", .activity "stop" "pump"]

theorem keyed_plant : plant.connectors.Keyed Connector.name := by
  have hconnectors : ∀ entry ∈ plant.connectors.toList, entry.2.name = entry.1 := by
    decide +kernel
  exact fun name connector hfound => hconnectors _ (Entries.mem_of_lookup hfound)

/-- The line has its transform from the last activity given to it, and its constraint from the one
before. -/
theorem allocations_reread_plant :
    plant.connectors.Keyed Connector.name ∧
    (ofModel plant).1.executableFor? "turn" = some "Fast" ∧
    (ofModel plant).1.functionsOf? "line" = some ⟨some "Fast", some "Level"⟩ ∧
    (ofModel plant).1.activitiesOf "pump" = ["run", "check"] ∧
    (ofModel plant).1.isReferenced "Slow" = true ∧
    (ofModel plant).2 = [.missingAllocation (.actionMissing "jump" "Slow"),
      .missingAllocation (.targetMissing "rest" "tank"),
      .missingAllocation (.activityMissing "stop" "pump")] := by
  obtain ⟨hexecutable, hfunctions, hactivities, hreferenced, hproblems, -⟩ :=
    allocations_reread keyed_plant
  refine ⟨keyed_plant, (hexecutable "turn").trans ?_, (hfunctions "line").trans ?_,
    (hactivities "pump").trans ?_, (hreferenced "Slow").2 (.inr ⟨"turn", ?_⟩), hproblems.trans ?_⟩
  all_goals decide +kernel

end Realization
end Archflow
