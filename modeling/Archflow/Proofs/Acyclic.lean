import Archflow.Proofs.Containment

/-!
Containment without circles. The search for components that contain themselves is followed round by
round here, with the path to the current component as a list that can be taken up again at each
component on it (`Search.round`). From the start this comes to an end, with the answer of
`checkContainment`, and a model is accepted exactly if no component is inside itself at any depth
(`containment_decided`).
-/
namespace Archflow.Model

/-- A component has another one inside of it, at any depth. -/
def Contains (model : Model) : String → String → Prop :=
  Relation.TransGen fun parent child => child ∈ model.children parent

/-- Where a search stands: the components that it has still to start from, those that it has
finished, and the path to the current component, from the inside out. Beside each component on the
path stands how many of its children have been looked at. -/
structure Search where
  roots : List String
  finished : List String
  path : List (String × Nat)

namespace Search

def start (model : Model) : Search := ⟨model.components.keys, [], []⟩

/-- One round of the search: it goes on somewhere, or it ends with a verdict. -/
def round (model : Model) (search : Search) : Search ⊕ Except Fault Unit :=
  match search.path with
  | [] =>
    match search.roots with
    | [] => .inr (.ok ())
    | root :: roots =>
        .inl { search with roots, path := if search.finished.contains root then [] else [(root, 0)] }
  | (current, next) :: above =>
    match (model.children current)[next]? with
    | none => .inl { search with finished := current :: search.finished, path := above }
    | some child =>
        let path := (current, next + 1) :: above
        if (path.map Prod.fst).contains child then
          .inr (.error (.invalidModel (.containsItself child current)))
        else
          .inl { search with
            path := if search.finished.contains child then path else (child, 0) :: path }

/-- A search comes to a verdict after finitely many rounds. -/
inductive Ends (model : Model) : Search → Except Fault Unit → Prop
  | verdict {search : Search} {verdict : Except Fault Unit} (h : search.round model = .inr verdict) :
      Ends model search verdict
  | next {search later : Search} {verdict : Except Fault Unit} (h : search.round model = .inl later)
      (hlater : Ends model later verdict) : Ends model search verdict

/-- How a search goes on from where it stands: it ends with a fault, or it comes to stand somewhere
else with more components finished. -/
def Yields (model : Model) (search : Search) (outcome : Except Fault (List String))
    (next : List String → Search) : Prop :=
  match outcome with
  | .ok found => ∀ verdict, Ends model (next found) verdict → Ends model search verdict
  | .error fault => Ends model search (.error fault)

namespace Yields

variable {model : Model} {search later : Search} {first : Except Fault (List String)}
  {middle next : List String → Search}

theorem here {found : List String} (h : next found = search) :
    Yields model search (.ok found) next := by
  intro verdict hends
  rwa [h] at hends

theorem cons {outcome : Except Fault (List String)} (h : search.round model = .inl later)
    (hlater : Yields model later outcome next) : Yields model search outcome next := by
  cases outcome with
  | error fault => exact .next h hlater
  | ok found => exact fun verdict hends => .next h (hlater verdict hends)

theorem trans {found : List String} {outcome : Except Fault (List String)}
    (h : Yields model search (.ok found) middle) (hnext : Yields model (middle found) outcome next) :
    Yields model search outcome next := by
  cases outcome with
  | error fault => exact h _ hnext
  | ok last => exact fun verdict hends => h verdict (hnext verdict hends)

theorem bind {second : List String → Except Fault (List String)}
    (h : Yields model search first middle)
    (hnext : ∀ found, Yields model (middle found) (second found) next) :
    Yields model search (first >>= second) next := by
  cases first with
  | error fault => exact h
  | ok found => exact h.trans (hnext found)

end Yields

variable {model : Model} {fuel : Nat} {roots : List String} {path : List (String × Nat)}
  {component : String}

def visit (model : Model) (fuel : Nat) (path : List String) (component : String)
    (finished : List String) (child : String) : Except Fault (List String) :=
  if (component :: path).contains child then .error (.invalidModel (.containsItself child component))
  else if finished.contains child then .ok finished
  else model.searchContainment fuel (component :: path) finished child

theorem searchContainment_succ (model : Model) (fuel : Nat) (path finished : List String)
    (component : String) :
    model.searchContainment (fuel + 1) path finished component =
      ((model.children component).foldlM (visit model fuel path component) finished >>=
        fun found => .ok (component :: found)) := rfl

theorem round_finish {next : Nat} (hnone : (model.children component)[next]? = none)
    (finished : List String) :
    round model ⟨roots, finished, (component, next) :: path⟩ =
      .inl ⟨roots, component :: finished, path⟩ := by
  simp only [round, hnone]

theorem round_child {next : Nat} {child : String}
    (hchild : (model.children component)[next]? = some child) (finished : List String) :
    round model ⟨roots, finished, (component, next) :: path⟩ =
      if (component :: path.map Prod.fst).contains child then
        .inr (.error (.invalidModel (.containsItself child component)))
      else if finished.contains child then .inl ⟨roots, finished, (component, next + 1) :: path⟩
      else .inl ⟨roots, finished, (child, 0) :: (component, next + 1) :: path⟩ := by
  simp only [round, hchild, List.map_cons]
  split
  · rfl
  · split <;> rfl

/-- The search goes on from one child to the next, provided that it comes back if it goes down. -/
theorem yields_child {next : Nat} {child : String} {finished : List String}
    (hchild : (model.children component)[next]? = some child)
    (hdown : child ∉ component :: path.map Prod.fst →
      Yields model ⟨roots, finished, (child, 0) :: (component, next + 1) :: path⟩
        (model.searchContainment fuel (component :: path.map Prod.fst) finished child)
        (⟨roots, ·, (component, next + 1) :: path⟩)) :
    Yields model ⟨roots, finished, (component, next) :: path⟩
      (visit model fuel (path.map Prod.fst) component finished child)
      (⟨roots, ·, (component, next + 1) :: path⟩) := by
  have hround : round model ⟨roots, finished, (component, next) :: path⟩ = _ :=
    round_child hchild finished
  unfold visit
  split
  · next hmet =>
    rw [if_pos hmet] at hround
    exact .verdict hround
  · next hfresh =>
    rw [if_neg hfresh] at hround
    split
    · next hdone =>
      rw [if_pos hdone] at hround
      exact .cons hround (.here rfl)
    · next hnew =>
      rw [if_neg hnew] at hround
      exact .cons hround (hdown (mt List.contains_iff_mem.2 hfresh))

/-- From a component, the search goes through the children that have not been looked at, provided
that it comes back from each child it goes down to. -/
theorem yields_children {seen rest : List String}
    (hchildren : model.children component = seen ++ rest)
    (hdown : ∀ child ∈ rest, child ∉ component :: path.map Prod.fst → ∀ finished next,
      Yields model ⟨roots, finished, (child, 0) :: (component, next) :: path⟩
        (model.searchContainment fuel (component :: path.map Prod.fst) finished child)
        (⟨roots, ·, (component, next) :: path⟩)) (finished : List String) :
    Yields model ⟨roots, finished, (component, seen.length) :: path⟩
      (rest.foldlM (visit model fuel (path.map Prod.fst) component) finished)
      (⟨roots, ·, (component, (model.children component).length) :: path⟩) := by
  -- The length of `seen` is the place at which the search takes the component up again.
  induction rest generalizing seen finished with
  | nil =>
    have hlength : (model.children component).length = seen.length := by simp [hchildren]
    exact .here (by rw [hlength])
  | cons child rest ih =>
    have hchild : (model.children component)[seen.length]? = some child := by simp [hchildren]
    have hnext : model.children component = (seen ++ [child]) ++ rest := by simp [hchildren]
    rw [List.foldlM_cons]
    refine (yields_child hchild fun hfresh => ?_).bind fun found => ?_
    · exact hdown child List.mem_cons_self hfresh finished _
    · have hrest := ih hnext (fun other hmem => hdown other (List.mem_cons_of_mem _ hmem)) found
      rw [List.length_append, List.length_singleton] at hrest
      exact hrest

theorem yields_searchContainment (path : List (String × Nat)) (finished : List String)
    (hfuel : model.Fuelled fuel (path.map Prod.fst) component) :
    Yields model ⟨roots, finished, (component, 0) :: path⟩
      (model.searchContainment fuel (path.map Prod.fst) finished component) (⟨roots, ·, path⟩) := by
  induction fuel generalizing path finished component with
  | zero => exact absurd rfl hfuel.ne_zero
  | succ fuel ih =>
    have hdown (child : String) (hchild : child ∈ model.children component)
        (hfresh : child ∉ component :: path.map Prod.fst) (finished : List String) (next : Nat) :=
      ih ((component, next) :: path) finished (hfuel.step hchild hfresh)
    rw [searchContainment_succ]
    refine (yields_children (List.nil_append _).symm hdown finished).bind fun found => ?_
    exact .cons (round_finish (by simp) found) (.here rfl)

def visitRoot (model : Model) (finished : List String) (root : String) : Except Fault (List String) :=
  if finished.contains root then .ok finished
  else model.searchContainment (model.components.size + 1) [] finished root

theorem checkContainment_eq (model : Model) :
    model.checkContainment =
      (model.components.keys.foldlM (visitRoot model) [] >>= fun _ => .ok ()) := rfl

theorem yields_roots (roots finished : List String) :
    Yields model ⟨roots, finished, []⟩ (roots.foldlM (visitRoot model) finished) (⟨[], ·, []⟩) := by
  induction roots generalizing finished with
  | nil => exact .here rfl
  | cons root roots ih =>
    have hround : round model ⟨root :: roots, finished, []⟩ =
        .inl ⟨roots, finished, if finished.contains root then [] else [(root, 0)]⟩ := rfl
    rw [List.foldlM_cons]
    refine Yields.bind (.cons hround ?_) fun found => ih found
    unfold visitRoot
    split
    · exact .here rfl
    · exact yields_searchContainment [] finished (.start model root)

theorem ends_checkContainment (model : Model) : Ends model (start model) model.checkContainment := by
  have hroots : Yields model (start model) _ _ := yields_roots model.components.keys []
  rw [checkContainment_eq]
  cases hfound : model.components.keys.foldlM (visitRoot model) [] with
  | error fault =>
    rw [hfound] at hroots
    exact hroots
  | ok found =>
    rw [hfound] at hroots
    exact hroots _ (.verdict rfl)

end Search

/-- The search for components that contain themselves ends after finitely many rounds, and it accepts
exactly the models in which no component is inside itself at any depth. -/
theorem containment_decided (model : Model) :
    Search.Ends model (.start model) model.checkContainment ∧
      (model.checkContainment = .ok () ↔ ∀ component, ¬ model.Contains component component) := by
  refine ⟨Search.ends_checkContainment model, fun hsearch component hinside => ?_, fun hfree => ?_⟩
  · obtain ⟨inner, hencloses, hback⟩ := Relation.TransGen.tail'_iff.1 hinside
    exact not_mem_children_of_encloses hsearch hencloses hback
  · cases hsearch : model.checkContainment with
    | ok => rfl
    | error fault =>
      obtain ⟨outer, inner, -, hencloses, hback⟩ := circle_of_checkContainment hsearch
      exact absurd (Relation.TransGen.tail' hencloses hback) (hfree outer)

end Archflow.Model
