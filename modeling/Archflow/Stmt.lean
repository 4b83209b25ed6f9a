import Archflow.Expr
import Archflow.TypeRef

/-!
The statements of executables.
-/
namespace Archflow

inductive Stmt where
  /-- Bind a name, to the default of its type if it has no initial value. -/
  | declare (name : String) (type : Option TypeRef) (init : Option Expr)
  | assign (target : String) (value : Expr)
  /-- The first arm whose condition holds is run, else the last block, if there is one. -/
  | branch (condition : Expr) (block : List Stmt) (arms : List (Expr × List Stmt))
      (otherwise : Option (List Stmt))
  | ret (value : Expr)
deriving Repr

namespace Stmt

instance : Inhabited Stmt := ⟨.ret default⟩

/-- Add an arm to a branching; other statements stay as they are. -/
def elseIf (stmt : Stmt) (condition : Expr) (block : List Stmt) : Stmt :=
  match stmt with
  | .branch first then_ arms otherwise => .branch first then_ (arms ++ [(condition, block)]) otherwise
  | other => other

/-- Set the last block of a branching; other statements stay as they are. -/
def orElse (stmt : Stmt) (block : List Stmt) : Stmt :=
  match stmt with
  | .branch first then_ arms _ => .branch first then_ arms (some block)
  | other => other

end Stmt
end Archflow
