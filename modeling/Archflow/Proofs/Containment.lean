import Archflow.Proofs.Validity
import Mathlib.Data.List.Chain
import Mathlib.Data.List.Perm.Subperm

/-!
What the search for components that contain themselves finds out. A search that succeeds has listed
the components it has finished so that all that a component contains comes after it (`OutsideIn`).
So in a valid model every way down from component to component meets each of them at most once
(`Nests.nodup`), and it has fewer steps than there are components (`Nests.length_le`). A search that
fails has come down from a component to itself (`circle_of_checkContainment`).
-/
namespace Archflow.Model

/-- In the list, whatever a component contains comes after it. -/
def OutsideIn (model : Model) : List String → Prop
  | [] => True
  | component :: rest => (∀ child ∈ model.children component, child ∈ rest) ∧ model.OutsideIn rest

/-- The components on a way down, each one contained in the one before it. -/
def Nests (model : Model) (names : List String) : Prop :=
  names.IsChain fun parent child => child ∈ model.children parent

def Declared (model : Model) : Prop :=
  ∀ parent, ∀ child ∈ model.children parent, child ∈ model.components.keys

theorem declared_of_validate {model : Model} (h : model.validate = .ok ()) : model.Declared := by
  intro parent child hmem
  unfold children at hmem
  split at hmem
  · next component hfound =>
    exact Table.mem_keys_of_contains ((wellFormed_of_validate h hfound).nested child hmem)
  · cases hmem

/-- A way down that starts in the list stays in it. It does not come back to a component, since all
that follows a component is found further on in the list. -/
theorem OutsideIn.nests {model : Model} {order : List String} (h : model.OutsideIn order)
    {name : String} {below : List String} (hmem : name ∈ order) (hnests : model.Nests (name :: below)) :
    (name :: below).Nodup ∧ ∀ other ∈ name :: below, other ∈ order := by
  induction order generalizing name below with
  | nil => cases hmem
  | cons component rest ih =>
    obtain ⟨hchildren, hrest⟩ := h
    by_cases hlater : name ∈ rest
    · obtain ⟨hnodup, hlisted⟩ := ih hrest hlater hnests
      exact ⟨hnodup, fun other hother => List.mem_cons_of_mem _ (hlisted other hother)⟩
    obtain rfl : name = component := (List.mem_cons.1 hmem).resolve_right hlater
    cases below with
    | nil => simp
    | cons child below =>
      obtain ⟨hchild, hbelow⟩ := List.isChain_cons_cons.1 hnests
      obtain ⟨hnodup, hlisted⟩ := ih hrest (hchildren child hchild) hbelow
      constructor
      · exact List.nodup_cons.2 ⟨fun hback => hlater (hlisted name hback), hnodup⟩
      · refine List.forall_mem_cons.2 ⟨List.mem_cons_self, fun other hother => ?_⟩
        exact List.mem_cons_of_mem _ (hlisted other hother)

/-! The search. -/

/-- The components of a list have been searched in addition to those that were finished before. -/
structure Searched (model : Model) (finished names found : List String) : Prop where
  order : model.OutsideIn found
  met : ∀ name ∈ names, name ∈ found
  kept : finished ⊆ found

theorem searched_of_foldlM {model : Model} {step : List String → String → Except Fault (List String)}
    {names finished found : List String}
    (hstep : ∀ name ∈ names, ∀ finished found, model.OutsideIn finished →
      step finished name = .ok found → model.Searched finished [name] found)
    (hfinished : model.OutsideIn finished) (h : names.foldlM step finished = .ok found) :
    model.Searched finished names found := by
  induction names generalizing finished with
  | nil =>
    cases h
    exact ⟨hfinished, by simp, List.Subset.refl _⟩
  | cons name rest ih =>
    rw [List.foldlM_cons] at h
    obtain ⟨mid, hname, hrest⟩ := exists_of_bind_ok h
    have hfirst := hstep name List.mem_cons_self finished mid hfinished hname
    have hlater := ih (fun other hmem => hstep other (List.mem_cons_of_mem _ hmem)) hfirst.order hrest
    refine ⟨hlater.order, List.forall_mem_cons.2 ⟨?_, hlater.met⟩, ?_⟩
    · exact hlater.kept (hfirst.met name List.mem_cons_self)
    · exact List.Subset.trans hfirst.kept hlater.kept

theorem searched_of_finished {model : Model} {finished : List String} {name : String}
    (h : model.OutsideIn finished) (hmem : name ∈ finished) :
    model.Searched finished [name] finished :=
  ⟨h, by simpa using hmem, List.Subset.refl _⟩

theorem length_le_size {model : Model} {names : List String} (hnodup : names.Nodup)
    (hkeys : ∀ name ∈ names, name ∈ model.components.keys) :
    names.length ≤ model.components.size := by
  have hle := (hnodup.subperm hkeys).length_le
  simpa [Table.keys, Table.size] using hle

theorem mem_keys_of_children {model : Model} {parent child : String}
    (h : child ∈ model.children parent) : parent ∈ model.components.keys := by
  unfold children at h
  split at h
  · next hfound => exact Table.mem_keys_of_contains (by simp [Table.contains, hfound])
  · cases h

/-- The path to a component has met no component twice, and only declared ones lead on. So it cannot
outgrow the table, and fuel for one component more than there are declared ones does not run out. -/
structure Fuelled (model : Model) (fuel : Nat) (path : List String) (component : String) : Prop where
  nodup : (component :: path).Nodup
  keys : ∀ name ∈ path, name ∈ model.components.keys
  fuel : model.components.size < fuel + path.length

namespace Fuelled

variable {model : Model} {fuel : Nat} {path : List String} {component child : String}

theorem start (model : Model) (root : String) : model.Fuelled (model.components.size + 1) [] root := by
  constructor <;> simp

theorem ne_zero (h : model.Fuelled fuel path component) : fuel ≠ 0 := by
  have hle := length_le_size (List.nodup_cons.1 h.nodup).2 h.keys
  have hfuel := h.fuel
  omega

theorem step (h : model.Fuelled (fuel + 1) path component) (hchild : child ∈ model.children component)
    (hfresh : child ∉ component :: path) : model.Fuelled fuel (component :: path) child := by
  refine ⟨List.nodup_cons.2 ⟨hfresh, h.nodup⟩, ?_, ?_⟩
  · exact List.forall_mem_cons.2 ⟨mem_keys_of_children hchild, h.keys⟩
  · have hfuel := h.fuel
    simp only [List.length_cons]
    omega

end Fuelled

/-- A search with enough fuel lists the component before all that was finished earlier. -/
theorem searched_of_searchContainment {model : Model} {fuel : Nat} {path finished found : List String}
    {component : String} (hfuel : model.Fuelled fuel path component)
    (hfinished : model.OutsideIn finished)
    (h : model.searchContainment fuel path finished component = .ok found) :
    model.Searched finished [component] found := by
  induction fuel generalizing path finished found component with
  | zero => exact absurd rfl hfuel.ne_zero
  | succ fuel ih =>
    rw [searchContainment] at h
    obtain ⟨inside, hinside, hfound⟩ := exists_of_bind_ok h
    have hchildren : model.Searched finished (model.children component) inside := by
      refine searched_of_foldlM (fun child hchild finished found hfinished hstep => ?_) hfinished hinside
      split at hstep
      · cases hstep
      · next hfresh =>
        split at hstep
        · next hdone =>
          cases hstep
          exact searched_of_finished hfinished (List.contains_iff_mem.1 hdone)
        · exact ih (hfuel.step hchild (mt List.contains_iff_mem.2 hfresh)) hfinished hstep
    cases hfound
    refine ⟨⟨hchildren.met, hchildren.order⟩, by simp, ?_⟩
    exact List.Subset.trans hchildren.kept (List.subset_cons_self ..)

/-- If no component contains itself, then all of them can be listed from the outside in. -/
theorem exists_outsideIn_of_checkContainment {model : Model} (h : model.checkContainment = .ok ()) :
    ∃ order, model.OutsideIn order ∧ ∀ name ∈ model.components.keys, name ∈ order := by
  obtain ⟨order, hsearch, -⟩ := exists_of_bind_ok h
  have hsearched : model.Searched [] model.components.keys order := by
    refine searched_of_foldlM (fun name hname finished found hfinished hstep => ?_) trivial hsearch
    split at hstep
    · next hdone =>
      cases hstep
      exact searched_of_finished hfinished (List.contains_iff_mem.1 hdone)
    · exact searched_of_searchContainment (.start model name) hfinished hstep
  exact ⟨order, hsearched.order, hsearched.met⟩

namespace Nests

variable {model : Model} {first : String} {below names : List String}

/-- All components below the first one are declared. -/
theorem mem_keys (hdeclared : model.Declared) (h : model.Nests (first :: below)) :
    ∀ name ∈ below, name ∈ model.components.keys := by
  induction below generalizing first with
  | nil => simp
  | cons second rest ih =>
    obtain ⟨hstep, hrest⟩ := List.isChain_cons_cons.1 h
    exact List.forall_mem_cons.2 ⟨hdeclared first second hstep, ih hrest⟩

theorem nodup_of_checkContainment (hsearch : model.checkContainment = .ok ()) (h : model.Nests names) :
    names.Nodup := by
  obtain ⟨order, horder, hlisted⟩ := exists_outsideIn_of_checkContainment hsearch
  match names with
  | [] => simp
  | [name] => simp
  | first :: second :: below =>
    have hfirst := mem_keys_of_children (List.isChain_cons_cons.1 h).1
    exact (horder.nests (hlisted first hfirst) h).1

theorem nodup (hvalid : model.validate = .ok ()) (h : model.Nests names) : names.Nodup :=
  h.nodup_of_checkContainment (checkContainment_of_validate hvalid)

/-- A way down has at most as many steps as there are other components. -/
theorem length_le (hvalid : model.validate = .ok ()) (h : model.Nests names) :
    names.length - 1 ≤ model.components.size - 1 := by
  match names with
  | [] => simp
  | [name] => simp
  | first :: second :: below =>
    have hfirst := mem_keys_of_children (List.isChain_cons_cons.1 h).1
    have hkeys := List.forall_mem_cons.2 ⟨hfirst, h.mem_keys (declared_of_validate hvalid)⟩
    have hle := length_le_size (h.nodup hvalid) hkeys
    omega

end Nests

/-! Searches that fail. -/

/-- A component is inside another one, at any depth, or is the other one. -/
def Encloses (model : Model) : String → String → Prop :=
  Relation.ReflTransGen fun parent child => child ∈ model.children parent

theorem exists_of_foldlM_error {step : List String → String → Except Fault (List String)}
    {names finished : List String} {fault : Fault} (h : names.foldlM step finished = .error fault) :
    ∃ name ∈ names, ∃ finished, step finished name = .error fault := by
  induction names generalizing finished with
  | nil => cases h
  | cons name rest ih =>
    rw [List.foldlM_cons] at h
    rcases error_of_bind h with hname | ⟨mid, _, hrest⟩
    · exact ⟨name, List.mem_cons_self, finished, hname⟩
    · obtain ⟨other, hmem, hother⟩ := ih hrest
      exact ⟨other, List.mem_cons_of_mem _ hmem, hother⟩

/-- A search that fails has met a component that is on the path, and everything on the path encloses
the component that is searched. -/
theorem circle_of_searchContainment {model : Model} {fuel : Nat} {path finished : List String}
    {component : String} {fault : Fault}
    (hpath : ∀ name ∈ component :: path, model.Encloses name component)
    (h : model.searchContainment fuel path finished component = .error fault) :
    ∃ outer inner, fault = .invalidModel (.containsItself outer inner) ∧
      model.Encloses outer inner ∧ outer ∈ model.children inner := by
  induction fuel generalizing path finished component with
  | zero => cases h
  | succ fuel ih =>
    rw [searchContainment] at h
    rcases error_of_bind h with hchildren | ⟨_, _, hdone⟩
    · obtain ⟨child, hchild, finished, hstep⟩ := exists_of_foldlM_error hchildren
      split at hstep
      · next hmet =>
        cases hstep
        exact ⟨child, component, rfl, hpath child (List.contains_iff_mem.1 hmet), hchild⟩
      · split at hstep
        · cases hstep
        · refine ih (List.forall_mem_cons.2 ⟨.refl, fun name hname => ?_⟩) hstep
          exact (hpath name hname).tail hchild
    · cases hdone

theorem circle_of_checkContainment {model : Model} {fault : Fault}
    (h : model.checkContainment = .error fault) :
    ∃ outer inner, fault = .invalidModel (.containsItself outer inner) ∧
      model.Encloses outer inner ∧ outer ∈ model.children inner := by
  rcases error_of_bind h with hsearch | ⟨_, _, hdone⟩
  · obtain ⟨name, _, finished, hstep⟩ := exists_of_foldlM_error hsearch
    split at hstep
    · cases hstep
    · exact circle_of_searchContainment (List.forall_mem_singleton.2 .refl) hstep
  · cases hdone

theorem not_mem_children_of_encloses {model : Model} (hsearch : model.checkContainment = .ok ())
    {outer inner : String} (h : model.Encloses outer inner) : outer ∉ model.children inner := by
  intro hback
  obtain ⟨below, hchain, hlast⟩ := List.exists_isChain_cons_of_relationReflTransGen h
  have hnests : model.Nests (outer :: below ++ [outer]) := by
    refine List.isChain_append.2 ⟨hchain, List.isChain_singleton _, ?_⟩
    intro last hmem first hfirst
    rw [List.getLast?_eq_some_getLast (List.cons_ne_nil _ _), hlast] at hmem
    cases hmem
    cases hfirst
    exact hback
  have hnodup := hnests.nodup_of_checkContainment hsearch
  simp at hnodup

end Archflow.Model
