import Archflow.Expr.Eval

/-!
Logical operators that leave out an operand. The strict evaluator computes both operands of every
binary operator before it applies the operator. Evaluation succeeds wherever the strict one does, and
with the same value; without logical operators the two do not differ at all
(`eval_extends_evalStrict`).
-/
namespace Archflow

/-- Where the first outcome is a value, the second is the same value. -/
def Refines {α : Type} (strict full : Except Fault α) : Prop :=
  ∀ value, strict = .ok value → full = .ok value

namespace Refines

variable {α β : Type}

theorem refl (outcome : Except Fault α) : Refines outcome outcome := fun _ h => h

theorem bind {strict full : Except Fault α} {next next' : α → Except Fault β}
    (h : Refines strict full) (hnext : ∀ value, Refines (next value) (next' value)) :
    Refines (strict >>= next) (full >>= next') := by
  intro value hvalue
  cases strict with
  | error fault => cases hvalue
  | ok item =>
    rw [h item rfl]
    exact hnext item value hvalue

end Refines

namespace Expr

mutual

/-- Evaluation that computes both operands of every binary operator. -/
def evalStrict (env : Env) (expr : Expr) : Except Fault Value :=
  match expr with
  | .const value => .ok value
  | .enumeral enumeration literal => env.resolveEnumeral enumeration literal
  | .object type fields => do
      let value := Value.ofFields (← evalStrictFields env fields)
      match type with
      | some name => env.symbols.check value (.ofName name) .objectLiteral
      | none => .ok ()
      .ok value
  | .variable name => env.resolve name
  | .field record name =>
    match env.portOf? record with
    | some current => current.readPortField name
    | none => do (← evalStrict env record).readField name
  | .unary token operand => do
      let op ← UnaryOp.parse token
      op.apply (← evalStrict env operand)
  | .binary token left right => do
      let op ← BinaryOp.parse token
      let l ← evalStrict env left
      let r ← evalStrict env right
      op.apply l r
termination_by structural expr

def evalStrictFields (env : Env) : List (String × Expr) → Except Fault (List (String × Value))
  | [] => .ok []
  | (name, expr) :: rest => do
      let value ← evalStrict env expr
      .ok ((name, value) :: (← evalStrictFields env rest))
termination_by structural fields => fields

end

mutual

def binaryTokens : Expr → List String
  | .const _ | .enumeral .. | .variable _ => []
  | .object _ fields => fieldTokens fields
  | .field record _ => record.binaryTokens
  | .unary _ operand => operand.binaryTokens
  | .binary token left right => token :: (left.binaryTokens ++ right.binaryTokens)
termination_by structural expr => expr

def fieldTokens : List (String × Expr) → List String
  | [] => []
  | (_, expr) :: rest => expr.binaryTokens ++ fieldTokens rest
termination_by structural fields => fields

end

def Unlogical (token : String) : Prop := ∀ op, BinaryOp.ofToken? token ≠ some (.logic op)

/-- No binary operator in the expression is a logical one. -/
def LogicFree (expr : Expr) : Prop := ∀ token ∈ expr.binaryTokens, Unlogical token

end Expr

/-! One binary operator. -/

/-- What a logical operator gives for two operands, evaluation of the right one on demand gives
too. -/
theorem LogicOp.refines_apply (connective : LogicOp) (l : Value) {strict full : Except Fault Value}
    (h : Refines strict full) :
    Refines (do (BinaryOp.logic connective).apply l (← strict))
      (do
        let a ← l.expectBool (.logic connective)
        match connective.decidedBy a with
        | some b => .ok (.bool b)
        | none => do .ok (.bool (← (← full).expectBool (.logic connective)))) := by
  intro value hvalue
  cases strict with
  | error fault => cases hvalue
  | ok r =>
    rw [h r rfl]
    change (BinaryOp.logic connective).apply l r = .ok value at hvalue
    unfold BinaryOp.apply at hvalue
    cases ha : l.expectBool (.logic connective) with
    | error fault =>
      rw [ha] at hvalue
      cases hvalue
    | ok a =>
      cases hb : r.expectBool (.logic connective) with
      | error fault =>
        rw [ha, hb] at hvalue
        cases hvalue
      | ok b =>
        rw [ha, hb] at hvalue
        cases hvalue
        cases hdecided : connective.decidedBy a with
        | some c =>
          have happly := LogicOp.apply_of_decidedBy hdecided b
          simp [bind, Except.bind, hdecided, happly]
        | none =>
          have happly := LogicOp.apply_of_undecided hdecided b
          simp [bind, Except.bind, hdecided, happly, hb]

namespace Expr

variable (env : Env)

mutual

theorem refines_eval (expr : Expr) : Refines (expr.evalStrict env) (expr.eval env) := by
  match expr with
  | .const value => exact .refl _
  | .enumeral enumeration literal => exact .refl _
  | .object type fields => exact (refines_evalFields fields).bind fun _ => .refl _
  | .variable name => exact .refl _
  | .field record name =>
    rw [evalStrict, eval]
    cases env.portOf? record with
    | some current => exact .refl _
    | none => exact (refines_eval record).bind fun _ => .refl _
  | .unary token operand =>
    exact (Refines.refl _).bind fun op => (refines_eval operand).bind fun _ => .refl _
  | .binary token left right =>
    refine (Refines.refl (BinaryOp.parse token)).bind fun op =>
      (refines_eval left).bind fun l => ?_
    cases op with
    | logic connective => exact connective.refines_apply l (refines_eval right)
    | arithmetic _ | order _ | equal | unequal =>
      exact (refines_eval right).bind fun _ => .refl _
termination_by structural expr

theorem refines_evalFields (fields : List (String × Expr)) :
    Refines (evalStrictFields env fields) (evalFields env fields) := by
  match fields with
  | [] => exact .refl _
  | (name, expr) :: rest =>
    exact (refines_eval expr).bind fun _ => (refines_evalFields rest).bind fun _ => .refl _
termination_by structural fields

end

variable {env}

/-- An operator that is not logical takes both of its operands. -/
theorem eval_binary_of_unlogical {token : String} (h : Unlogical token) (left right : Expr) :
    (Expr.binary token left right).eval env = (do
      let op ← BinaryOp.parse token
      let l ← left.eval env
      let r ← right.eval env
      op.apply l r) := by
  rw [eval]
  unfold BinaryOp.parse
  cases hop : BinaryOp.ofToken? token with
  | none => rfl
  | some op =>
    cases op with
    | logic connective => exact absurd hop (h connective)
    | arithmetic _ | order _ | equal | unequal => rfl

mutual

theorem eval_of_logicFree (expr : Expr) (h : expr.LogicFree) :
    expr.eval env = expr.evalStrict env := by
  match expr with
  | .const value => rfl
  | .enumeral enumeration literal => rfl
  | .object none fields | .object (some _) fields =>
    simp only [eval, evalStrict, evalFields_of_unlogical fields h]
  | .variable name => rfl
  | .field record name =>
    have hrecord := eval_of_logicFree record h
    cases hport : env.portOf? record with
    | some current => simp only [eval, evalStrict, hport]
    | none => simp only [eval, evalStrict, hport, hrecord]
  | .unary token operand => simp only [eval, evalStrict, eval_of_logicFree operand h]
  | .binary token left right =>
    obtain ⟨htoken, hoperands⟩ := List.forall_mem_cons.1 h
    obtain ⟨hleft, hright⟩ := List.forall_mem_append.1 hoperands
    rw [eval_binary_of_unlogical htoken, evalStrict, eval_of_logicFree left hleft,
      eval_of_logicFree right hright]
termination_by structural expr

theorem evalFields_of_unlogical (fields : List (String × Expr))
    (h : ∀ token ∈ fieldTokens fields, Unlogical token) :
    evalFields env fields = evalStrictFields env fields := by
  match fields with
  | [] => rfl
  | (name, expr) :: rest =>
    obtain ⟨hexpr, hrest⟩ := List.forall_mem_append.1 h
    simp only [evalFields, evalStrictFields, eval_of_logicFree expr hexpr,
      evalFields_of_unlogical rest hrest]
termination_by structural fields

end

/-- Evaluation extends the strict one: it has every value that the strict one has, and without
logical operators it is the strict one, faults included. -/
theorem eval_extends_evalStrict (env : Env) (expr : Expr) :
    (∀ value, expr.evalStrict env = .ok value → expr.eval env = .ok value) ∧
      (expr.LogicFree → expr.eval env = expr.evalStrict env) :=
  ⟨refines_eval env expr, eval_of_logicFree expr⟩

/-- The strict evaluator has a value for `on and !off`, and it has none for `on == lost`. -/
theorem eval_extends_evalStrict_switch :
    let env := ((Env.new {}).bind "on" (.bool true)).bind "off" (.bool false)
    let both := Expr.binary "and" (.variable "on") (.unary "!" (.variable "off"))
    let lost := Expr.binary "==" (.variable "on") (.variable "lost")
    (both.evalStrict env = .ok (.bool true) ∧ both.eval env = .ok (.bool true)) ∧
      lost.LogicFree ∧ lost.eval env = lost.evalStrict env := by
  intro env both lost
  have hboth : both.evalStrict env = .ok (.bool true) := by rfl
  have hlost : lost.LogicFree := by
    rintro token hmem op
    obtain rfl := List.mem_singleton.1 hmem
    simp [BinaryOp.ofToken?]
  exact ⟨⟨hboth, (eval_extends_evalStrict env both).1 _ hboth⟩, hlost,
    (eval_extends_evalStrict env lost).2 hlost⟩

/-- An operand that is left out need not have a value. -/
example : (Expr.binary "implies" (.const (.bool false)) (.variable "lost")).eval (.new {}) =
    .ok (.bool true) := rfl

end Expr
end Archflow
