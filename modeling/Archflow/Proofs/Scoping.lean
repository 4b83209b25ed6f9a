import Archflow.Executable
import Mathlib.Data.List.Forall2

/-!
What a run of statements does to the scopes around it. Names are declared in the innermost scope
only, and every block has a scope of its own that is left however the block ends. So the enclosing
scopes keep their names and their ports, and the only values that change in them are those of names
that the statements assign to (`Scope.Kept`). A call of an executable runs in a new scope and keeps
all scopes of its caller in this sense (`scopes_kept`).
-/
namespace Archflow

namespace Stmt

mutual

def assigned : Stmt → List String
  | .declare .. => []
  | .assign target _ => [target]
  | .branch _ block arms otherwise =>
      assignedAll block ++ (assignedArms arms ++ assignedLast otherwise)
  | .ret _ => []
termination_by structural stmt => stmt

def assignedAll : List Stmt → List String
  | [] => []
  | stmt :: rest => assigned stmt ++ assignedAll rest
termination_by structural stmts => stmts

def assignedArms : List (Expr × List Stmt) → List String
  | [] => []
  | (_, block) :: rest => assignedAll block ++ assignedArms rest
termination_by structural arms => arms

def assignedLast : Option (List Stmt) → List String
  | none => []
  | some block => assignedAll block
termination_by structural otherwise => otherwise

end

end Stmt

/-! Scopes whose names may be assigned to. -/

/-- What may become of a scope when some names are assigned to: it has the same names, the same
ports, and the same values under all other names. -/
structure Scope.Kept (assigned : List String) (before after : Scope) : Prop where
  names : ∀ name, after.contains name = before.contains name
  ports : ∀ name port current,
    after.get? name = some (.port port current) ↔ before.get? name = some (.port port current)
  values : ∀ name, name ∉ assigned → after.get? name = before.get? name

namespace Scope.Kept

variable {assigned : List String} {scope before middle after : Scope}

theorem refl (scope : Scope) : Scope.Kept assigned scope scope :=
  ⟨fun _ => rfl, fun _ _ _ => Iff.rfl, fun _ _ => rfl⟩

theorem trans (h : Scope.Kept assigned before middle) (h' : Scope.Kept assigned middle after) :
    Scope.Kept assigned before after := by
  refine ⟨fun name => ?_, fun name port current => ?_, fun name hname => ?_⟩
  · rw [h'.names, h.names]
  · rw [h'.ports, h.ports]
  · rw [h'.values name hname, h.values name hname]

/-- An assignment needs a name that has a value, and replaces the value. -/
theorem assign? {name : String} {value : Value} (hname : name ∈ assigned)
    (h : before.assign? name value = some (.ok after)) : Scope.Kept assigned before after := by
  unfold Scope.assign? at h
  split at h
  · next old hold =>
    cases h
    constructor
    · intro other
      by_cases hother : other = name <;> simp [Table.contains, hother, hold]
    · intro other port current
      by_cases hother : other = name <;> simp [hother, hold]
    · intro other hother
      have hne : other ≠ name := fun heq => hother (heq ▸ hname)
      simp [hne]
  · cases h
  · cases h

end Scope.Kept

/-! Lists of scopes that are kept one by one. -/

namespace Scope

variable {assigned : List String} {before middle after : List Scope}

theorem forall₂_kept_refl (scopes : List Scope) : List.Forall₂ (Kept assigned) scopes scopes :=
  List.forall₂_same.2 fun scope _ => .refl scope

theorem forall₂_kept_trans (h : List.Forall₂ (Kept assigned) before middle)
    (h' : List.Forall₂ (Kept assigned) middle after) :
    List.Forall₂ (Kept assigned) before after := by
  induction h generalizing after with
  | nil => exact h'
  | cons hfirst _ ih =>
    cases h' with
    | cons hfirst' hrest' => exact .cons (hfirst.trans hfirst') (ih hrest')

/-- An assignment changes the first scope that has the name, and no other one. -/
theorem forall₂_kept_assignIn {name : String} {value : Value} (hname : name ∈ assigned)
    (h : Env.assignIn name value before = .ok after) :
    List.Forall₂ (Kept assigned) before after := by
  fun_induction Env.assignIn name value before generalizing after with
  | case1 => cases h
  | case2 scope rest changed hscope =>
    cases h
    exact .cons (.assign? hname hscope) (forall₂_kept_refl rest)
  | case3 => cases h
  | case4 scope rest _ outer hrest ih =>
    cases h
    exact .cons (.refl scope) (ih hrest)
  | case5 => cases h

end Scope

/-! Environments. -/

namespace Env

structure Kept (assigned : List String) (before after : Env) : Prop where
  symbols : after.symbols = before.symbols
  scopes : List.Forall₂ (Scope.Kept assigned) before.scopes after.scopes

/-- All scopes but the innermost one are kept. -/
structure OuterKept (assigned : List String) (before after : Env) : Prop where
  symbols : after.symbols = before.symbols
  outer : List.Forall₂ (Scope.Kept assigned) before.outer after.outer

variable {assigned : List String} {before middle after : Env}

theorem Kept.refl (env : Env) : env.Kept assigned env := ⟨rfl, Scope.forall₂_kept_refl _⟩

theorem Kept.outerKept (h : before.Kept assigned after) : before.OuterKept assigned after :=
  ⟨h.symbols, (List.forall₂_cons.1 h.scopes).2⟩

theorem Kept.assign {name : String} {value : Value} (hname : name ∈ assigned)
    (h : before.assign name value = .ok after) : before.Kept assigned after := by
  unfold Env.assign at h
  split at h
  · next hscope =>
    cases h
    exact ⟨rfl, .cons (.assign? hname hscope) (Scope.forall₂_kept_refl _)⟩
  · cases h
  · split at h
    · next houter =>
      cases h
      exact ⟨rfl, .cons (.refl _) (Scope.forall₂_kept_assignIn hname houter)⟩
    · cases h

namespace OuterKept

theorem refl (env : Env) : env.OuterKept assigned env := ⟨rfl, Scope.forall₂_kept_refl _⟩

theorem trans (h : before.OuterKept assigned middle) (h' : middle.OuterKept assigned after) :
    before.OuterKept assigned after :=
  ⟨h'.symbols.trans h.symbols, Scope.forall₂_kept_trans h.outer h'.outer⟩

theorem depth_eq (h : before.OuterKept assigned after) : after.depth = before.depth := by
  simp [depth, h.outer.length_eq]

theorem bind (env : Env) (name : String) (value : Value) :
    env.OuterKept assigned (env.bind name value) := ⟨rfl, Scope.forall₂_kept_refl _⟩

/-- A scope that is entered and left again leaves all scopes that were there before. -/
theorem pop (h : before.push.OuterKept assigned after) : before.Kept assigned after.pop := by
  obtain ⟨hsymbols, houter⟩ := h
  obtain ⟨symbols, scope, outer⟩ := after
  cases houter with
  | cons hscope hrest => exact ⟨hsymbols, .cons hscope hrest⟩

end OuterKept
end Env

/-! Statements. -/

namespace Stmt

/-- Run a block in a scope of its own. -/
def execBlock (env : Env) (block : List Stmt) : Outcome × Env :=
  ((execAll env.push block).1, (execAll env.push block).2.pop)

/-- A branching runs at most one block. -/
theorem exec_branch (env : Env) (condition : Expr) (block : List Stmt)
    (arms : List (Expr × List Stmt)) (otherwise : Option (List Stmt)) :
    exec env (.branch condition block arms otherwise) =
      match condition.holds env with
      | .error fault => (.error fault, env)
      | .ok true => execBlock env block
      | .ok false => (execArms env arms).getD (execLast env otherwise) := by
  rw [exec]
  cases condition.holds env with
  | error fault => rfl
  | ok holds =>
    cases holds with
    | true => rfl
    | false => cases execArms env arms <;> rfl

theorem execArms_cons (env : Env) (condition : Expr) (block : List Stmt)
    (rest : List (Expr × List Stmt)) :
    execArms env ((condition, block) :: rest) =
      match condition.holds env with
      | .error fault => some (.error fault, env)
      | .ok true => some (execBlock env block)
      | .ok false => execArms env rest := rfl

theorem execLast_some (env : Env) (block : List Stmt) :
    execLast env (some block) = execBlock env block := rfl

section
variable {names : List String}

mutual

theorem outerKept_exec (env : Env) (stmt : Stmt) (h : assigned stmt ⊆ names) :
    env.OuterKept names (exec env stmt).2 := by
  match stmt with
  | .declare name type init =>
    rw [exec]
    split
    · apply Env.OuterKept.bind
    · apply Env.OuterKept.refl
  | .assign target expr =>
    rw [exec]
    split
    · apply Env.OuterKept.refl
    · split
      · next hassign =>
        have htarget : target ∈ names := h (by simp [assigned])
        exact (Env.Kept.assign htarget hassign).outerKept
      · apply Env.OuterKept.refl
  | .branch condition block arms otherwise =>
    obtain ⟨hblock, hothers⟩ := List.append_subset.1 h
    obtain ⟨harms, hlast⟩ := List.append_subset.1 hothers
    rw [exec_branch]
    split
    · apply Env.OuterKept.refl
    · exact (outerKept_execAll env.push block hblock).pop.outerKept
    · cases hresult : execArms env arms with
      | none => exact (kept_execLast env otherwise hlast).outerKept
      | some result => exact (kept_execArms env arms harms result hresult).outerKept
  | .ret expr =>
    rw [exec]
    split <;> apply Env.OuterKept.refl
termination_by structural stmt

theorem outerKept_execAll (env : Env) (stmts : List Stmt) (h : assignedAll stmts ⊆ names) :
    env.OuterKept names (execAll env stmts).2 := by
  match stmts with
  | [] => exact .refl env
  | stmt :: rest =>
    obtain ⟨hstmt, hrest⟩ := List.append_subset.1 h
    have hfirst := outerKept_exec env stmt hstmt
    rw [execAll]
    split
    · next next hexec =>
      rw [hexec] at hfirst
      exact hfirst.trans (outerKept_execAll next rest hrest)
    · next outcome next _ hexec =>
      rw [hexec] at hfirst
      exact hfirst
termination_by structural stmts

theorem kept_execArms (env : Env) (arms : List (Expr × List Stmt)) (h : assignedArms arms ⊆ names)
    (result : Outcome × Env) (hresult : execArms env arms = some result) :
    env.Kept names result.2 := by
  match arms with
  | [] => cases hresult
  | (condition, block) :: rest =>
    obtain ⟨hblock, hrest⟩ := List.append_subset.1 h
    rw [execArms_cons] at hresult
    split at hresult
    · cases hresult
      exact .refl env
    · cases hresult
      exact (outerKept_execAll env.push block hblock).pop
    · exact kept_execArms env rest hrest result hresult
termination_by structural arms

theorem kept_execLast (env : Env) (otherwise : Option (List Stmt))
    (h : assignedLast otherwise ⊆ names) : env.Kept names (execLast env otherwise).2 := by
  match otherwise with
  | none => exact .refl env
  | some block => exact (outerKept_execAll env.push block h).pop
termination_by structural otherwise

end

end

theorem depth_execAll (env : Env) (stmts : List Stmt) :
    (execAll env stmts).2.depth = env.depth :=
  (outerKept_execAll env stmts (List.Subset.refl _)).depth_eq

end Stmt

/-! Executables. -/

namespace Executable

variable {names : List String}

theorem outerKept_bindEach {exe : Executable} {params : List Param} {args : List Value}
    {env inner : Env} (h : exe.bindEach params args env = .ok inner) :
    env.OuterKept names inner := by
  induction params generalizing args env with
  | nil =>
    cases h
    apply Env.OuterKept.refl
  | cons param rest ih =>
    rw [bindEach] at h
    cases hcheck : env.symbols.check (args.head?.getD (param.initial env.symbols)) param.type
        (.parameter param.name exe.name) with
    | error fault =>
      rw [hcheck] at h
      cases h
    | ok =>
      rw [hcheck] at h
      exact (Env.OuterKept.bind env param.name _).trans (ih h)

theorem kept_invoke (exe : Executable) (args : List Value) (env : Env)
    (h : Stmt.assignedAll exe.body ⊆ names) : env.Kept names (exe.invoke args env).2 := by
  unfold invoke
  cases hbound : exe.bindParams args env.push with
  | error fault => exact .refl env
  | ok inner =>
    have hinner : env.push.OuterKept names inner := by
      unfold bindParams at hbound
      split at hbound
      · cases hbound
      · exact outerKept_bindEach hbound
    exact (hinner.trans (Stmt.outerKept_execAll inner exe.body h)).pop

end Executable

/-- However a run of statements ends, it leaves as many scopes as there were, and all of them but
the innermost one with the names and ports they had. A name of theirs has another value only if the
statements assign to it somewhere. A call of an executable leaves all scopes of its caller so. -/
theorem scopes_kept :
    (∀ (env : Env) (stmts : List Stmt),
      (Stmt.execAll env stmts).2.depth = env.depth ∧
      List.Forall₂ (Scope.Kept (Stmt.assignedAll stmts)) env.outer
        (Stmt.execAll env stmts).2.outer) ∧
    ∀ (exe : Executable) (args : List Value) (env : Env),
      (exe.invoke args env).2.depth = env.depth ∧
      List.Forall₂ (Scope.Kept (Stmt.assignedAll exe.body)) env.scopes
        (exe.invoke args env).2.scopes := by
  constructor
  · intro env stmts
    have hkept := Stmt.outerKept_execAll env stmts (List.Subset.refl _)
    exact ⟨hkept.depth_eq, hkept.outer⟩
  · intro exe args env
    have hkept := exe.kept_invoke args env (List.Subset.refl _)
    exact ⟨hkept.outerKept.depth_eq, hkept.scopes⟩

end Archflow
