import Archflow.Proofs.Scoping

/-!
Scopes without names. An expression sees an environment only through the names it looks up
(`eval_congr`), so it does not see a scope that has no names. Statements do not see such a scope
either, unless it is the one they declare names in: it stays empty and changes nothing (`exec_pad`).
So a branching may be moved into a block of its own (`execBlock_branch`), and a further arm of a
branching is a branching in its last block (`elseIf_eq_nested`).
-/
namespace Archflow

namespace Env

/-- All names have the same meaning in two environments. -/
structure Agrees (env other : Env) : Prop where
  symbols : other.symbols = env.symbols
  lookup : ∀ name, other.lookup name = env.lookup name

namespace Agrees

variable {env other : Env} (h : env.Agrees other)
include h

theorem resolve (name : String) : other.resolve name = env.resolve name := by
  simp only [Env.resolve, value?, h.lookup, h.symbols]

theorem resolveEnumeral (enumeration : Option String) (literal : String) :
    other.resolveEnumeral enumeration literal = env.resolveEnumeral enumeration literal := by
  simp only [Env.resolveEnumeral, h.symbols]

theorem portOf? (expr : Expr) : other.portOf? expr = env.portOf? expr := by
  cases expr <;> simp only [Env.portOf?, h.lookup]

end Agrees
end Env

namespace Expr

variable {env other : Env}

mutual

theorem eval_congr (h : env.Agrees other) (expr : Expr) : expr.eval other = expr.eval env := by
  match expr with
  | .const value => rfl
  | .enumeral enumeration literal => exact h.resolveEnumeral enumeration literal
  | .object type fields => simp only [eval, evalFields_congr h fields, h.symbols]
  | .variable name => exact h.resolve name
  | .field record name => simp only [eval, h.portOf? record, eval_congr h record]
  | .unary token operand => simp only [eval, eval_congr h operand]
  | .binary token left right => simp only [eval, eval_congr h left, eval_congr h right]
termination_by structural expr

theorem evalFields_congr (h : env.Agrees other) (fields : List (String × Expr)) :
    evalFields other fields = evalFields env fields := by
  match fields with
  | [] => rfl
  | (name, expr) :: rest => simp only [evalFields, eval_congr h expr, evalFields_congr h rest]
termination_by structural fields

end

theorem holds_congr (h : env.Agrees other) (condition : Expr) :
    condition.holds other = condition.holds env := by
  simp only [holds, eval_congr h condition]

end Expr

theorem Stmt.initial_congr {env other : Env} (h : env.Agrees other) (name : String)
    (type : Option TypeRef) (init : Option Expr) :
    Stmt.initial other name type init = Stmt.initial env name type init := by
  cases init with
  | none => simp only [Stmt.initial, h.symbols]
  | some expr => simp only [Stmt.initial, h.symbols, expr.eval_congr h]

/-! An empty scope among the others. -/

namespace Env

/-- Put in an empty scope that encloses the innermost scope and so many others. -/
def pad (env : Env) (place : Nat) : Env := { env with outer := env.outer.insertIdx place ∅ }

theorem findSome?_insertIdx (name : String) (place : Nat) (scopes : List Scope) :
    (scopes.insertIdx place ∅).findSome? (·.get? name) = scopes.findSome? (·.get? name) := by
  induction scopes generalizing place with
  | nil => cases place <;> rfl
  | cons scope rest ih =>
    cases place with
    | zero => rfl
    | succ place => simp only [List.insertIdx_succ_cons, List.findSome?_cons, ih]

theorem lookup_pad (env : Env) (place : Nat) (name : String) :
    (env.pad place).lookup name = env.lookup name := by
  simp only [lookup, scopes, pad, List.findSome?_cons, findSome?_insertIdx]

theorem agrees_pad (env : Env) (place : Nat) : env.Agrees (env.pad place) :=
  ⟨rfl, env.lookup_pad place⟩

theorem agrees_push (env : Env) : env.Agrees env.push := ⟨rfl, env.lookup_push⟩

theorem push_pad (env : Env) (place : Nat) :
    (env.pad place).push = env.push.pad (place + 1) := rfl

theorem push_push (env : Env) : env.push.push = env.push.pad 0 := rfl

theorem pop_pad {env : Env} (h : 1 < env.depth) (place : Nat) :
    (env.pad (place + 1)).pop = env.pop.pad place := by
  obtain ⟨symbols, scope, outer⟩ := env
  cases outer with
  | nil => simp [depth] at h
  | cons next rest => rfl

theorem pop_pad_zero {env : Env} (h : 1 < env.depth) : (env.pad 0).pop = env.pop.push := by
  obtain ⟨symbols, scope, outer⟩ := env
  cases outer with
  | nil => simp [depth] at h
  | cons next rest => rfl

theorem assignIn_insertIdx (name : String) (value : Value) (place : Nat) (scopes : List Scope) :
    assignIn name value (scopes.insertIdx place ∅) =
      (assignIn name value scopes).map (·.insertIdx place ∅) := by
  induction scopes generalizing place with
  | nil => cases place <;> rfl
  | cons scope rest ih =>
    cases place with
    | zero =>
      simp only [List.insertIdx_zero]
      rw [assignIn]
      have hempty : Scope.assign? ∅ name value = none := rfl
      rw [hempty]
      cases assignIn name value (scope :: rest) <;> rfl
    | succ place =>
      rw [List.insertIdx_succ_cons, assignIn, assignIn, ih]
      cases scope.assign? name value with
      | none => cases assignIn name value rest <;> rfl
      | some changed => cases changed <;> rfl

/-- An assignment passes by an empty scope. -/
theorem assign_pad (env : Env) (place : Nat) (name : String) (value : Value) :
    (env.pad place).assign name value = (env.assign name value).map (·.pad place) := by
  simp only [assign, pad, assignIn_insertIdx]
  cases env.scope.assign? name value with
  | none => cases assignIn name value env.outer <;> rfl
  | some changed => cases changed <;> rfl

end Env

namespace Stmt

def inEnv (change : Env → Env) (result : Outcome × Env) : Outcome × Env :=
  (result.1, change result.2)

theorem one_lt_depth_execAll_push (env : Env) (block : List Stmt) :
    1 < (execAll env.push block).2.depth := by
  rw [depth_execAll, Env.depth_push]
  simp [Env.depth]

/-- A block runs in a scope of its own, so the empty scope is one place further out in it. -/
theorem execBlock_pad {env : Env} {place : Nat} {block : List Stmt}
    (h : execAll (env.push.pad (place + 1)) block =
      inEnv (·.pad (place + 1)) (execAll env.push block)) :
    execBlock (env.pad place) block = inEnv (·.pad place) (execBlock env block) := by
  have hdepth := one_lt_depth_execAll_push env block
  simp only [execBlock, Env.push_pad, h, inEnv, Env.pop_pad hdepth]

mutual

theorem exec_pad (env : Env) (place : Nat) (stmt : Stmt) :
    exec (env.pad place) stmt = inEnv (·.pad place) (exec env stmt) := by
  match stmt with
  | .declare name type init =>
    -- The name is bound in the innermost scope, which is not the empty one.
    rw [exec, exec, initial_congr (env.agrees_pad place)]
    cases initial env name type init <;> rfl
  | .assign target expr =>
    rw [exec, exec, expr.eval_congr (env.agrees_pad place)]
    cases expr.eval env with
    | error fault => rfl
    | ok value =>
      dsimp only
      rw [env.assign_pad place target value]
      cases env.assign target value <;> rfl
  | .branch condition block arms otherwise =>
    rw [exec_branch, exec_branch, condition.holds_congr (env.agrees_pad place)]
    match condition.holds env with
    | .error fault => rfl
    | .ok true => exact execBlock_pad (execAll_pad env.push (place + 1) block)
    | .ok false =>
      dsimp only
      rw [execArms_pad env place arms, execLast_pad env place otherwise]
      cases execArms env arms <;> rfl
  | .ret expr =>
    rw [exec, exec, expr.eval_congr (env.agrees_pad place)]
    cases expr.eval env <;> rfl
termination_by structural stmt

theorem execAll_pad (env : Env) (place : Nat) (stmts : List Stmt) :
    execAll (env.pad place) stmts = inEnv (·.pad place) (execAll env stmts) := by
  match stmts with
  | [] => rfl
  | stmt :: rest =>
    rw [execAll, execAll, exec_pad env place stmt]
    obtain ⟨outcome, next⟩ := exec env stmt
    match outcome with
    | .ok none => exact execAll_pad next place rest
    | .ok (some value) => rfl
    | .error fault => rfl
termination_by structural stmts

theorem execArms_pad (env : Env) (place : Nat) (arms : List (Expr × List Stmt)) :
    execArms (env.pad place) arms = (execArms env arms).map (inEnv (·.pad place)) := by
  match arms with
  | [] => rfl
  | (condition, block) :: rest =>
    rw [execArms_cons, execArms_cons, condition.holds_congr (env.agrees_pad place)]
    match condition.holds env with
    | .error fault => rfl
    | .ok true => exact congrArg some (execBlock_pad (execAll_pad env.push (place + 1) block))
    | .ok false => exact execArms_pad env place rest
termination_by structural arms

theorem execLast_pad (env : Env) (place : Nat) (otherwise : Option (List Stmt)) :
    execLast (env.pad place) otherwise = inEnv (·.pad place) (execLast env otherwise) := by
  match otherwise with
  | none => rfl
  | some block => exact execBlock_pad (execAll_pad env.push (place + 1) block)
termination_by structural otherwise

end

/-! A branching in a scope of its own. -/

/-- Inside of an empty scope, a block leaves this scope empty. -/
theorem execBlock_push (env : Env) (block : List Stmt) :
    execBlock env.push block = inEnv Env.push (execBlock env block) := by
  have hdepth := one_lt_depth_execAll_push env block
  simp only [execBlock, Env.push_push, execAll_pad, inEnv, Env.pop_pad_zero hdepth]

theorem execArms_push (env : Env) (arms : List (Expr × List Stmt)) :
    execArms env.push arms = (execArms env arms).map (inEnv Env.push) := by
  induction arms with
  | nil => rfl
  | cons arm rest ih =>
    obtain ⟨condition, block⟩ := arm
    rw [execArms_cons, execArms_cons, condition.holds_congr env.agrees_push]
    match condition.holds env with
    | .error fault => rfl
    | .ok true => exact congrArg some (execBlock_push env block)
    | .ok false => exact ih

theorem execLast_push (env : Env) (otherwise : Option (List Stmt)) :
    execLast env.push otherwise = inEnv Env.push (execLast env otherwise) := by
  cases otherwise with
  | none => rfl
  | some block => exact execBlock_push env block

/-- A branching declares nothing itself. -/
theorem exec_branch_push (env : Env) (condition : Expr) (block : List Stmt)
    (arms : List (Expr × List Stmt)) (otherwise : Option (List Stmt)) :
    exec env.push (.branch condition block arms otherwise) =
      inEnv Env.push (exec env (.branch condition block arms otherwise)) := by
  rw [exec_branch, exec_branch, condition.holds_congr env.agrees_push]
  match condition.holds env with
  | .error fault => rfl
  | .ok true => exact execBlock_push env block
  | .ok false =>
    dsimp only
    rw [execArms_push, execLast_push]
    cases execArms env arms <;> rfl

theorem execAll_singleton (env : Env) (stmt : Stmt) : execAll env [stmt] = exec env stmt := by
  rw [execAll]
  obtain ⟨outcome, next⟩ := exec env stmt
  match outcome with
  | .ok none => rfl
  | .ok (some value) => rfl
  | .error fault => rfl

/-- A block that consists of one branching does what the branching does. -/
theorem execBlock_branch (env : Env) (condition : Expr) (block : List Stmt)
    (arms : List (Expr × List Stmt)) (otherwise : Option (List Stmt)) :
    execBlock env [.branch condition block arms otherwise] =
      exec env (.branch condition block arms otherwise) := by
  simp only [execBlock, execAll_singleton, exec_branch_push, inEnv, Env.pop_push]

/-- A branching with further arms is one whose last block is a branching over these arms: it ends in
the same way and leaves the same environment. -/
theorem elseIf_eq_nested (env : Env) (condition : Expr) (block : List Stmt) (next : Expr)
    (inner : List Stmt) (rest : List (Expr × List Stmt)) (otherwise : Option (List Stmt)) :
    exec env (.branch condition block ((next, inner) :: rest) otherwise) =
      exec env (.branch condition block [] (some [.branch next inner rest otherwise])) := by
  rw [exec_branch, exec_branch, execArms_cons, execLast_some, execBlock_branch, exec_branch]
  match condition.holds env with
  | .error fault => rfl
  | .ok true => rfl
  | .ok false =>
    -- Both sides have come to the second condition in the same environment.
    match next.holds env with
    | .error fault => rfl
    | .ok true => rfl
    | .ok false => rfl

end Stmt
end Archflow
