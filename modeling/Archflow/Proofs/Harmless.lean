import Archflow.Constraint
import Archflow.Executable

/-!
Faults that do not end a run. Only a limit that is exceeded is fatal, and nothing that is computed
from values alone has a limit to exceed: checks, operators, expressions, statements, calls of
executables and constraints are harmless, whatever they are given.
-/
namespace Archflow

/-- A fault, if there is one, is not fatal. -/
def Harmless {α : Type} (outcome : Except Fault α) : Prop :=
  ∀ fault, outcome = .error fault → fault.isFatal = false

namespace Harmless

variable {α β : Type}

@[simp] theorem ok (value : α) : Harmless (.ok value) := by
  intro fault h
  cases h

@[simp] theorem error_iff {fault : Fault} :
    Harmless (.error fault : Except Fault α) ↔ fault.isFatal = false := by
  constructor
  · intro h
    exact h fault rfl
  · rintro h _ ⟨⟩
    exact h

theorem error {fault : Fault} (h : Harmless (.error fault : Except Fault α)) :
    Harmless (.error fault : Except Fault β) :=
  error_iff.2 (error_iff.1 h)

theorem bind {first : Except Fault α} {next : α → Except Fault β} (h : Harmless first)
    (hnext : ∀ value, Harmless (next value)) : Harmless (first >>= next) := by
  cases first with
  | error fault => exact h.error
  | ok value => exact hnext value

theorem map {outcome : Except Fault α} (h : Harmless outcome) (f : α → β) :
    Harmless (outcome.map f) := by
  cases outcome with
  | error fault => exact h.error
  | ok value => exact ok (f value)

theorem forM {check : α → Except Fault Unit} (h : ∀ item, Harmless (check item)) (item : Option α) :
    Harmless (item.forM check) := by
  cases item with
  | none => exact .ok ()
  | some item => exact h item

theorem ne_limit {outcome : Except Fault α} (h : Harmless outcome) (limit : Nat) :
    outcome ≠ .error (.cascadeLimitExceeded limit) := by
  intro hlimit
  cases h _ hlimit

end Harmless

/-! Operators. -/

theorem SymbolTable.harmless_check (symbols : SymbolTable) (value : Value) (type : TypeRef)
    (slot : Slot) : Harmless (symbols.check value type slot) := by
  unfold check
  split <;> simp [Fault.isFatal]

theorem UnaryOp.harmless_parse (token : String) : Harmless (UnaryOp.parse token) := by
  unfold parse
  split <;> simp [Fault.isFatal]

theorem BinaryOp.harmless_parse (token : String) : Harmless (BinaryOp.parse token) := by
  unfold parse
  split <;> simp [Fault.isFatal]

theorem Value.harmless_expectBool (op : BinaryOp) (value : Value) : Harmless (value.expectBool op) := by
  unfold expectBool
  split <;> simp [Fault.isFatal]

namespace ArithmeticOp

theorem harmless_exactly (op : ArithmeticOp) (a b : Int64) (result : Int) :
    Harmless (op.exactly a b result) := by
  unfold exactly
  split <;> simp [Fault.isFatal]

theorem harmless_applyInt (op : ArithmeticOp) (a b : Int64) : Harmless (op.applyInt a b) := by
  unfold applyInt
  cases op with
  | add | sub | mul => apply harmless_exactly
  | div =>
    dsimp only
    split
    · simp [Fault.isFatal]
    · split
      · apply harmless_exactly
      · apply Harmless.ok
  | mod =>
    dsimp only
    split
    · simp [Fault.isFatal]
    · split
      · apply harmless_exactly
      · simp [Fault.isFatal]

theorem harmless_apply (op : ArithmeticOp) (l r : Value) : Harmless (op.apply l r) := by
  unfold apply
  split
  · apply harmless_applyInt
  · split
    · dsimp only
      split
      · simp [Fault.isFatal]
      · split <;> simp [Fault.isFatal]
    · simp [Fault.isFatal]

end ArithmeticOp

theorem UnaryOp.harmless_apply (op : UnaryOp) (value : Value) : Harmless (op.apply value) := by
  unfold apply
  split
  · apply Harmless.ok
  · split <;> simp [Fault.isFatal]
  · apply Harmless.ok
  · simp [Fault.isFatal]

theorem BinaryOp.harmless_apply (op : BinaryOp) (l r : Value) : Harmless (op.apply l r) := by
  unfold apply
  split
  · split
    · apply Harmless.ok
    · apply ArithmeticOp.harmless_apply
  · apply ArithmeticOp.harmless_apply
  · apply Harmless.ok
  · apply Harmless.ok
  · split <;> simp [Fault.isFatal]
  · refine (l.harmless_expectBool _).bind fun a => ?_
    exact (r.harmless_expectBool _).bind fun b => .ok _

/-! Expressions. -/

theorem Value.harmless_readField (value : Value) (name : String) : Harmless (value.readField name) := by
  unfold readField
  split
  · split <;> simp [Fault.isFatal]
  · simp [Fault.isFatal]

theorem Value.harmless_readPortField (current : Value) (name : String) :
    Harmless (current.readPortField name) := by
  unfold readPortField
  split
  · apply Harmless.ok
  · exact current.harmless_readField name

namespace Env

theorem harmless_resolve (env : Env) (name : String) : Harmless (env.resolve name) := by
  unfold resolve
  split
  · apply Harmless.ok
  · split <;> simp [Fault.isFatal]

theorem harmless_resolveEnumeral (env : Env) (enumeration : Option String) (literal : String) :
    Harmless (env.resolveEnumeral enumeration literal) := by
  unfold resolveEnumeral
  split
  · split
    · apply Harmless.ok
    · split <;> simp [Fault.isFatal]
  · split <;> simp [Fault.isFatal]

/-- Only an assignment to a port is refused by the scope that has the name. -/
theorem not_fatal_of_assign? {scope : Scope} {name : String} {value : Value} {fault : Fault}
    (h : scope.assign? name value = some (.error fault)) : fault.isFatal = false := by
  unfold Scope.assign? at h
  split at h <;> cases h
  rfl

theorem harmless_assignIn (name : String) (value : Value) (scopes : List Scope) :
    Harmless (assignIn name value scopes) := by
  induction scopes with
  | nil => simp [assignIn, Fault.isFatal]
  | cons scope rest ih =>
    rw [assignIn]
    split
    · apply Harmless.ok
    · next hrefused => exact Harmless.error_iff.2 (not_fatal_of_assign? hrefused)
    · split
      · apply Harmless.ok
      · next hrest => exact Harmless.error_iff.2 (ih _ hrest)

theorem harmless_assign (env : Env) (name : String) (value : Value) :
    Harmless (env.assign name value) := by
  unfold assign
  split
  · apply Harmless.ok
  · next hrefused => exact Harmless.error_iff.2 (not_fatal_of_assign? hrefused)
  · split
    · apply Harmless.ok
    · next houter => exact Harmless.error_iff.2 (harmless_assignIn name value env.outer _ houter)

end Env

namespace Expr

mutual

theorem harmless_eval (env : Env) (expr : Expr) : Harmless (expr.eval env) := by
  match expr with
  | .const value => exact .ok value
  | .enumeral enumeration literal => exact env.harmless_resolveEnumeral enumeration literal
  | .object type fields =>
    rw [eval]
    refine (harmless_evalFields env fields).bind fun values => ?_
    cases type with
    | none => apply Harmless.ok
    | some name => exact (env.symbols.harmless_check _ _ _).bind fun _ => .ok _
  | .variable name => exact env.harmless_resolve name
  | .field record name =>
    rw [eval]
    split
    · apply Value.harmless_readPortField
    · exact (harmless_eval env record).bind fun value => value.harmless_readField name
  | .unary token operand =>
    rw [eval]
    exact (UnaryOp.harmless_parse token).bind fun op =>
      (harmless_eval env operand).bind fun value => op.harmless_apply value
  | .binary token left right =>
    rw [eval]
    refine (BinaryOp.harmless_parse token).bind fun op => (harmless_eval env left).bind fun l => ?_
    split
    · refine (l.harmless_expectBool _).bind fun a => ?_
      split
      · apply Harmless.ok
      · exact (harmless_eval env right).bind fun r => (r.harmless_expectBool _).bind fun b => .ok _
    · exact (harmless_eval env right).bind fun r => op.harmless_apply l r
termination_by structural expr

theorem harmless_evalFields (env : Env) (fields : List (String × Expr)) :
    Harmless (evalFields env fields) := by
  match fields with
  | [] => exact .ok []
  | (name, expr) :: rest =>
    rw [evalFields]
    exact (harmless_eval env expr).bind fun value =>
      (harmless_evalFields env rest).bind fun values => .ok _
termination_by structural fields

end

theorem harmless_holds (env : Env) (condition : Expr) : Harmless (condition.holds env) := by
  refine (harmless_eval env condition).bind fun value => ?_
  split <;> simp [Fault.isFatal]

end Expr

/-! Statements, executables and constraints. -/

namespace Stmt

theorem harmless_initial (env : Env) (name : String) (type : Option TypeRef) (init : Option Expr) :
    Harmless (initial env name type init) := by
  unfold initial
  cases type with
  | none =>
    cases init with
    | none => apply Harmless.ok
    | some expr => exact (expr.harmless_eval env).bind fun value => .ok value
  | some type =>
    have hcheck (value : Value) :
        Harmless (env.symbols.check value type (.variable name) >>= fun _ => .ok value) :=
      (env.symbols.harmless_check _ _ _).bind fun _ => .ok value
    cases init with
    | none => exact hcheck _
    | some expr => exact (expr.harmless_eval env).bind hcheck

mutual

theorem harmless_exec (env : Env) (stmt : Stmt) : Harmless (exec env stmt).1 := by
  match stmt with
  | .declare name type init =>
    rw [exec]
    split
    · apply Harmless.ok
    · next hfault => exact Harmless.error_iff.2 (harmless_initial env name type init _ hfault)
  | .assign target expr =>
    rw [exec]
    split
    · next hfault => exact Harmless.error_iff.2 (expr.harmless_eval env _ hfault)
    · next value _ =>
      split
      · apply Harmless.ok
      · next hfault => exact Harmless.error_iff.2 (env.harmless_assign target value _ hfault)
  | .branch condition block arms otherwise =>
    rw [exec]
    split
    · next hfault => exact Harmless.error_iff.2 (condition.harmless_holds env _ hfault)
    · exact harmless_execAll env.push block
    · split
      · next result hresult => exact harmless_execArms env arms result hresult
      · exact harmless_execLast env otherwise
  | .ret expr =>
    rw [exec]
    split
    · apply Harmless.ok
    · next hfault => exact Harmless.error_iff.2 (expr.harmless_eval env _ hfault)
termination_by structural stmt

theorem harmless_execAll (env : Env) (stmts : List Stmt) : Harmless (execAll env stmts).1 := by
  match stmts with
  | [] => exact .ok none
  | stmt :: rest =>
    have hfirst := harmless_exec env stmt
    rw [execAll]
    split
    · next after hexec => exact harmless_execAll after rest
    · next outcome after _ hexec =>
      rw [hexec] at hfirst
      exact hfirst
termination_by structural stmts

theorem harmless_execArms (env : Env) (arms : List (Expr × List Stmt)) (result : Outcome × Env)
    (h : execArms env arms = some result) : Harmless result.1 := by
  match arms with
  | [] => cases h
  | (condition, block) :: rest =>
    rw [execArms] at h
    split at h
    · next hfault =>
      cases h
      exact Harmless.error_iff.2 (condition.harmless_holds env _ hfault)
    · cases h
      exact harmless_execAll env.push block
    · exact harmless_execArms env rest result h
termination_by structural arms

theorem harmless_execLast (env : Env) (otherwise : Option (List Stmt)) :
    Harmless (execLast env otherwise).1 := by
  match otherwise with
  | none => exact .ok none
  | some block => exact harmless_execAll env.push block
termination_by structural otherwise

end

end Stmt

namespace Executable

theorem harmless_bindEach (exe : Executable) (params : List Param) (args : List Value) (env : Env) :
    Harmless (exe.bindEach params args env) := by
  induction params generalizing args env with
  | nil => apply Harmless.ok
  | cons param rest ih => exact (env.symbols.harmless_check _ _ _).bind fun _ => ih _ _

theorem harmless_bindParams (exe : Executable) (args : List Value) (env : Env) :
    Harmless (exe.bindParams args env) := by
  unfold bindParams
  split
  · simp [Fault.isFatal]
  · apply harmless_bindEach

theorem harmless_checkResult (exe : Executable) (symbols : SymbolTable) {outcome : Outcome}
    (h : Harmless outcome) : Harmless (exe.checkResult symbols outcome) := by
  unfold checkResult
  split
  · exact (symbols.harmless_check _ _ _).bind fun _ => .ok _
  · exact h

/-- No call of an executable ends the run. -/
theorem harmless_run (exe : Executable) (args : List Value) (symbols : SymbolTable) :
    Harmless (exe.run args symbols) := by
  unfold run invoke
  split
  · next hfault => exact Harmless.error_iff.2 (exe.harmless_bindParams _ _ _ hfault)
  · exact exe.harmless_checkResult _ (Stmt.harmless_execAll _ exe.body)

end Executable

namespace Constraint

theorem harmless_requireIf (name : String) (condition : Option Expr) (env : Env) :
    Harmless (requireIf name condition env) := by
  cases condition with
  | none => exact .ok ()
  | some condition =>
    refine (condition.harmless_eval env).bind fun outcome => ?_
    split <;> simp [Fault.isFatal]

theorem harmless_check (constraint : Constraint) (env : Env) : Harmless (constraint.check env) :=
  (harmless_requireIf _ _ env).bind fun _ => harmless_requireIf _ _ env

end Constraint
end Archflow
