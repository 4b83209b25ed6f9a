import Archflow.SymbolTable

/-!
Environments of expressions and statements: the declared types, and nested scopes of names. A name
is bound to a value, or to a port whose current value it shows. There is always an innermost scope.
-/
namespace Archflow

inductive Binding where
  | value (value : Value)
  | port (port : String) (current : Option Value)
deriving DecidableEq, Repr

/-- The value that a binding shows; a port without a value shows the unknown one. -/
def Binding.shown : Binding → Value
  | .value v => v
  | .port _ current => current.getD .unknown

abbrev Scope := Table Binding

/-- Give a new value to a name of this scope. There is no answer if the scope lacks the name. -/
def Scope.assign? (scope : Scope) (name : String) (value : Value) : Option (Except Fault Scope) :=
  match scope.get? name with
  | some (.value _) => some (.ok (scope.insert name (.value value)))
  | some (.port port _) => some (.error (.typeMismatch (.assignToPort port)))
  | none => none

structure Env where
  symbols : SymbolTable
  scope : Scope := ∅
  /-- The enclosing scopes, from the inside out. -/
  outer : List Scope := []
deriving DecidableEq

namespace Env

def new (symbols : SymbolTable) : Env := { symbols }

/-- All scopes, from the inside out. -/
def scopes (env : Env) : List Scope := env.scope :: env.outer

def depth (env : Env) : Nat := env.outer.length + 1

def bind (env : Env) (name : String) (value : Value) : Env :=
  { env with scope := env.scope.insert name (.value value) }

def bindPort (env : Env) (name : String) (current : Option Value) : Env :=
  { env with scope := env.scope.insert name (.port name current) }

def bindAll (env : Env) (bindings : List (String × Value)) : Env :=
  bindings.foldl (fun env binding => env.bind binding.1 binding.2) env

def lookup (env : Env) (name : String) : Option Binding := env.scopes.findSome? (·.get? name)

def value? (env : Env) (name : String) : Option Value := (env.lookup name).map Binding.shown

def assignIn (name : String) (value : Value) : List Scope → Except Fault (List Scope)
  | [] => .error (.unresolved (.assignmentTarget name))
  | scope :: rest =>
      match scope.assign? name value with
      | some (.ok scope) => .ok (scope :: rest)
      | some (.error fault) => .error fault
      | none =>
        match assignIn name value rest with
        | .ok rest => .ok (scope :: rest)
        | .error fault => .error fault

/-- Assign to the innermost binding of a name. Ports cannot be assigned to. -/
def assign (env : Env) (name : String) (value : Value) : Except Fault Env :=
  match env.scope.assign? name value with
  | some (.ok scope) => .ok { env with scope }
  | some (.error fault) => .error fault
  | none =>
    match assignIn name value env.outer with
    | .ok outer => .ok { env with outer }
    | .error fault => .error fault

def push (env : Env) : Env := { env with scope := ∅, outer := env.scope :: env.outer }

/-- Leave the innermost scope. The outermost one cannot be left. -/
def pop (env : Env) : Env :=
  match env.outer with
  | [] => env
  | scope :: outer => { env with scope, outer }

/-- A binding in the innermost scope hides all others of its name. -/
@[simp] theorem lookup_bind (env : Env) (name other : String) (value : Value) :
    (env.bind name value).lookup other =
      if other = name then some (.value value) else env.lookup other := by
  by_cases h : other = name <;> simp [lookup, scopes, bind, List.findSome?_cons, h]

@[simp] theorem lookup_bindPort (env : Env) (name other : String) (current : Option Value) :
    (env.bindPort name current).lookup other =
      if other = name then some (.port name current) else env.lookup other := by
  by_cases h : other = name <;> simp [lookup, scopes, bindPort, List.findSome?_cons, h]

@[simp] theorem lookup_push (env : Env) (name : String) : env.push.lookup name = env.lookup name := rfl

/-- A scope that is left right after it was entered leaves no trace. -/
@[simp] theorem pop_push (env : Env) : env.push.pop = env := rfl

@[simp] theorem depth_push (env : Env) : env.push.depth = env.depth + 1 := rfl

@[simp] theorem depth_bind (env : Env) (name : String) (value : Value) :
    (env.bind name value).depth = env.depth := rfl

end Env
end Archflow
