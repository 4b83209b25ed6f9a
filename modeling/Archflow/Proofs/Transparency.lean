import Archflow.Expr.Eval
import Mathlib

/-!
Names of ports among other names. A port shows its current value, so it makes no difference to an
expression whether a name is bound to the port or to that value, in whatever scope it is bound. The
exception is the field `value`, which a port has of its own; a record with such a field hides it
(`ports_transparent`).
-/
namespace Archflow

namespace Expr

def isVariable (name : String) : Expr → Bool
  | .variable other => other == name
  | _ => false

mutual

/-- Does the expression somewhere read the field `value` of a name? -/
def readsValueOf (name : String) (expr : Expr) : Bool :=
  match expr with
  | .const _ | .enumeral .. | .variable _ => false
  | .object _ fields => fieldsReadValueOf name fields
  | .field record key => record.isVariable name && key == "value" || readsValueOf name record
  | .unary _ operand => readsValueOf name operand
  | .binary _ left right => readsValueOf name left || readsValueOf name right
termination_by structural expr

def fieldsReadValueOf (name : String) : List (String × Expr) → Bool
  | [] => false
  | (_, expr) :: rest => readsValueOf name expr || fieldsReadValueOf name rest
termination_by structural fields => fields

end

end Expr

namespace Env

/-- Bind a name to a value in the scope with the given number of scopes inside of it. -/
def bindAt (env : Env) (level : Nat) (name : String) (value : Value) : Env :=
  match level with
  | 0 => env.bind name value
  | level + 1 => { env with outer := env.outer.modify level (·.insert name (.value value)) }

theorem scopes_bindAt (env : Env) (level : Nat) (name : String) (value : Value) :
    (env.bindAt level name value).scopes =
      env.scopes.modify level (·.insert name (.value value)) := by
  cases level <;> rfl

theorem symbols_bindAt (env : Env) (level : Nat) (name : String) (value : Value) :
    (env.bindAt level name value).symbols = env.symbols := by
  cases level <;> rfl

/-- Two environments differ in one name at most, which one of them binds to a port and the other to
the value that the port shows. -/
structure Unveils (env other : Env) (name : String) (value : Value) : Prop where
  symbols : other.symbols = env.symbols
  lookup : ∀ key, other.lookup key = env.lookup key ∨
    key = name ∧ other.lookup key = some (.value value) ∧
      ∃ port current, env.lookup key = some (.port port current) ∧ current.getD .unknown = value

theorem findSome?_modify {scopes : List Scope} {level : Nat} {scope : Scope} {name : String}
    {old : Binding} (hscope : scopes[level]? = some scope) (hold : scope.get? name = some old)
    (new : Binding) (key : String) :
    (scopes.modify level (·.insert name new)).findSome? (·.get? key) =
        scopes.findSome? (·.get? key) ∨
      key = name ∧ (scopes.modify level (·.insert name new)).findSome? (·.get? key) = some new ∧
        scopes.findSome? (·.get? key) = some old := by
  induction scopes generalizing level with
  | nil => cases hscope
  | cons first rest ih =>
    cases level with
    | zero =>
      cases hscope
      by_cases hkey : key = name
      · subst hkey
        exact .inr ⟨rfl, by simp [hold]⟩
      · exact .inl (by simp [List.findSome?_cons, hkey])
    | succ level =>
      rw [List.modify_succ_cons, List.findSome?_cons, List.findSome?_cons]
      cases first.get? key with
      | some found => exact .inl rfl
      | none => exact ih hscope

theorem unveils_bindAt {env : Env} {level : Nat} {scope : Scope} {name port : String}
    {current : Option Value} (hscope : env.scopes[level]? = some scope)
    (hport : scope.get? name = some (.port port current)) :
    env.Unveils (env.bindAt level name (current.getD .unknown)) name (current.getD .unknown) where
  symbols := env.symbols_bindAt ..
  lookup key := by
    rw [Env.lookup, Env.lookup, scopes_bindAt]
    refine (findSome?_modify hscope hport _ key).imp_right ?_
    rintro ⟨hkey, hnew, hold⟩
    exact ⟨hkey, hnew, port, current, hold, rfl⟩

namespace Unveils

variable {env other : Env} {name : String} {value : Value} (h : env.Unveils other name value)
include h

theorem resolve (key : String) : other.resolve key = env.resolve key := by
  have hvalue : other.value? key = env.value? key := by
    rcases h.lookup key with hsame | ⟨_, hnew, port, current, hold, hshown⟩
    · rw [value?, value?, hsame]
    · rw [value?, value?, hnew, hold, ← hshown]
      rfl
  rw [Env.resolve, Env.resolve, hvalue, h.symbols]

theorem resolveEnumeral (enumeration : Option String) (literal : String) :
    other.resolveEnumeral enumeration literal = env.resolveEnumeral enumeration literal := by
  simp only [Env.resolveEnumeral, h.symbols]

/-- A variable stands for the same port, or for a port in one environment and its value in the
other. -/
theorem portOf?_cases (record : Expr) :
    other.portOf? record = env.portOf? record ∨
      record = .variable name ∧ env.portOf? record = some value ∧ other.portOf? record = none ∧
        record.eval other = .ok value := by
  match record with
  | .variable key =>
    rcases h.lookup key with hsame | ⟨rfl, hnew, port, current, hold, hshown⟩
    · exact .inl (by simp only [Env.portOf?, hsame])
    · refine .inr ⟨rfl, ?_, ?_, ?_⟩
      · simp only [Env.portOf?, hold, hshown]
      · simp only [Env.portOf?, hnew]
      · simp only [Expr.eval, Env.resolve, value?, hnew, Option.map_some, Binding.shown]
  | .const _ | .enumeral .. | .object .. | .field .. | .unary .. | .binary .. => exact .inl rfl

end Unveils
end Env

/-- A port has no other field than its value has, apart from the field `value`. -/
theorem Value.readPortField_eq {value : Value} {name : String}
    (h : name = "value" → (value.field? "value").isSome) :
    value.readPortField name = value.readField name := by
  refine if_neg ?_
  simp only [Bool.and_eq_true, decide_eq_true_eq, Option.isNone_iff_eq_none, not_and]
  intro hname hnone
  have hsome := h hname
  rw [hnone] at hsome
  cases hsome

namespace Expr

variable {env other : Env} {name : String} {value : Value}

mutual

theorem eval_unveiled (h : env.Unveils other name value) (expr : Expr)
    (hreads : expr.readsValueOf name = true → (value.field? "value").isSome) :
    expr.eval other = expr.eval env := by
  match expr with
  | .const value => rfl
  | .enumeral enumeration literal => exact h.resolveEnumeral enumeration literal
  | .object type fields => simp only [eval, evalFields_unveiled h fields hreads, h.symbols]
  | .variable key => exact h.resolve key
  | .field record key =>
    rw [eval, eval]
    rcases h.portOf?_cases record with hsame | ⟨rfl, hport, hnone, hvalue⟩
    · have hrecord := eval_unveiled h record fun hread => hreads (by simp [readsValueOf, hread])
      simp only [hsame, hrecord]
    · have hkey : value.readPortField key = value.readField key := by
        refine Value.readPortField_eq fun hvaluekey => hreads ?_
        simp [readsValueOf, isVariable, hvaluekey]
      simp only [hport, hnone, hvalue, hkey, bind, Except.bind]
  | .unary token operand => simp only [eval, eval_unveiled h operand hreads]
  | .binary token left right =>
    have hleft := eval_unveiled h left fun hread => hreads (by simp [readsValueOf, hread])
    have hright := eval_unveiled h right fun hread => hreads (by simp [readsValueOf, hread])
    simp only [eval, hleft, hright]
termination_by structural expr

theorem evalFields_unveiled (h : env.Unveils other name value) (fields : List (String × Expr))
    (hreads : fieldsReadValueOf name fields = true → (value.field? "value").isSome) :
    evalFields other fields = evalFields env fields := by
  match fields with
  | [] => rfl
  | (key, expr) :: rest =>
    have hfirst := eval_unveiled h expr fun hread => hreads (by simp [fieldsReadValueOf, hread])
    have hrest := evalFields_unveiled h rest fun hread => hreads (by simp [fieldsReadValueOf, hread])
    simp only [evalFields, hfirst, hrest]
termination_by structural fields

end

/-- A name that some scope binds to a port may be bound there to the value of the port instead: no
expression tells the difference, faults included, unless it reads the field `value` of the name and
the value of the port has no such field. -/
theorem ports_transparent {level : Nat} {scope : Scope} {port : String} {current : Option Value}
    (hscope : env.scopes[level]? = some scope) (hport : scope.get? name = some (.port port current))
    (expr : Expr)
    (hreads : expr.readsValueOf name = false ∨
      ∃ item, (current.getD .unknown).field? "value" = some item) :
    expr.eval (env.bindAt level name (current.getD .unknown)) = expr.eval env := by
  refine eval_unveiled (Env.unveils_bindAt hscope hport) expr fun hread => ?_
  rcases hreads with hnone | ⟨item, hitem⟩
  · rw [hread] at hnone
    cases hnone
  · exact Option.isSome_of_eq_some hitem

/-- The field `value` of a port that holds an integer is lost when the port gives way to the integer. -/
example :
    let env := (Env.new {}).bindPort "reading" (some (.int 4))
    let reading := Expr.field (.variable "reading") "value"
    (reading.eval env).toOption = some (.int 4) ∧
      (reading.eval (env.bindAt 0 "reading" (.int 4))).toOption = none := by
  decide

/-- The scope of a port whose value is a record with a field `value`. -/
def gauge : Scope := .ofList [("reading", .port "reading" (some (.record [("value", .int 4)])))]

theorem ports_transparent_gauge :
    let env : Env := { symbols := {}, outer := [gauge] }
    let doubled := Expr.binary "+" (.field (.variable "reading") "value")
      (.field (.variable "reading") "value")
    doubled.readsValueOf "reading" = true ∧
      doubled.eval (env.bindAt 1 "reading" (.record [("value", .int 4)])) = doubled.eval env ∧
      doubled.eval env = .ok (.int 8) := by
  intro env doubled
  have hscope : env.scopes[1]? = some gauge := rfl
  have hport : gauge.get? "reading" = some (.port "reading" (some (.record [("value", .int 4)]))) := by
    decide +kernel
  exact ⟨rfl, ports_transparent hscope hport doubled (.inr ⟨.int 4, rfl⟩), by cbv⟩

end Expr
end Archflow
