import Archflow.Expr.Eval
import Archflow.Stmt

/-!
Execution of statements. A run either falls off the end, returns a value, or fails; the environment
it leaves behind is part of the result in all three cases. Every block of a branching runs in a
scope of its own, which is left again however the block ends.
-/
namespace Archflow

/-- How a run of statements ends: with a returned value, at the end, or with a fault. -/
abbrev Outcome := Except Fault (Option Value)

namespace Stmt

def initial (env : Env) (name : String) (type : Option TypeRef) (init : Option Expr) :
    Except Fault Value := do
  let value ← match init with
    | some expr => expr.eval env
    | none => .ok (env.symbols.defaultFor (type.getD .any))
  match type with
  | some type => env.symbols.check value type (.variable name)
  | none => .ok ()
  .ok value

mutual

def exec (env : Env) (stmt : Stmt) : Outcome × Env :=
  match stmt with
  | .declare name type init =>
    match initial env name type init with
    | .ok value => (.ok none, env.bind name value)
    | .error fault => (.error fault, env)
  | .assign target expr =>
    match expr.eval env with
    | .error fault => (.error fault, env)
    | .ok value =>
      match env.assign target value with
      | .ok env => (.ok none, env)
      | .error fault => (.error fault, env)
  | .branch condition block arms otherwise =>
    match condition.holds env with
    | .error fault => (.error fault, env)
    | .ok true =>
        let (outcome, env) := execAll env.push block
        (outcome, env.pop)
    | .ok false =>
      match execArms env arms with
      | some result => result
      | none => execLast env otherwise
  | .ret expr =>
    match expr.eval env with
    | .ok value => (.ok (some value), env)
    | .error fault => (.error fault, env)
termination_by structural stmt

/-- Run statements in order until one returns or fails. -/
def execAll (env : Env) (stmts : List Stmt) : Outcome × Env :=
  match stmts with
  | [] => (.ok none, env)
  | stmt :: rest =>
    match exec env stmt with
    | (.ok none, env) => execAll env rest
    | (outcome, env) => (outcome, env)
termination_by structural stmts

/-- Run the first arm whose condition holds. There is no answer if none does. -/
def execArms (env : Env) (arms : List (Expr × List Stmt)) : Option (Outcome × Env) :=
  match arms with
  | [] => none
  | (condition, block) :: rest =>
    match condition.holds env with
    | .error fault => some (.error fault, env)
    | .ok true =>
        let (outcome, env) := execAll env.push block
        some (outcome, env.pop)
    | .ok false => execArms env rest
termination_by structural arms

def execLast (env : Env) (otherwise : Option (List Stmt)) : Outcome × Env :=
  match otherwise with
  | none => (.ok none, env)
  | some block =>
      let (outcome, env) := execAll env.push block
      (outcome, env.pop)
termination_by structural otherwise

end

end Stmt
end Archflow
