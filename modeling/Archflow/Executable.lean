import Archflow.Stmt.Exec

/-!
Executables: named bodies of statements with typed parameters and a typed result.
-/
namespace Archflow

structure Param where
  name : String
  type : TypeRef
  default : Option Value := none
deriving Repr

/-- The value a parameter has where no argument is given for it. -/
def Param.initial (param : Param) (symbols : SymbolTable) : Value :=
  param.default.getD (symbols.defaultFor param.type)

structure Executable where
  name : String
  params : List Param
  returns : TypeRef
  body : List Stmt
deriving Repr

namespace Executable

def defaultArguments (exe : Executable) (symbols : SymbolTable) : List Value :=
  exe.params.map (·.initial symbols)

/-- Bind parameters to arguments, in order, until a value does not fit its parameter. -/
def bindEach (exe : Executable) : List Param → List Value → Env → Except Fault Env
  | [], _, env => .ok env
  | param :: params, args, env => do
      let value := args.head?.getD (param.initial env.symbols)
      env.symbols.check value param.type (.parameter param.name exe.name)
      bindEach exe params args.tail (env.bind param.name value)

def bindParams (exe : Executable) (args : List Value) (env : Env) : Except Fault Env :=
  if exe.params.length < args.length then
    .error (.typeMismatch (.tooManyArguments exe.name exe.params.length args.length))
  else exe.bindEach exe.params args env

def checkResult (exe : Executable) (symbols : SymbolTable) : Outcome → Outcome
  | .ok (some value) => do
      symbols.check value exe.returns (.result exe.name)
      .ok (some value)
  | outcome => outcome

/-- Call an executable from an environment. The parameters and everything the body declares live in
a scope that is left again when the call ends. -/
def invoke (exe : Executable) (args : List Value) (env : Env) : Outcome × Env :=
  match exe.bindParams args env.push with
  | .error fault => (.error fault, env)
  | .ok inner =>
      let (outcome, inner) := Stmt.execAll inner exe.body
      (exe.checkResult env.symbols outcome, inner.pop)

/-- Call an executable that sees nothing but its arguments and the declared types. -/
def run (exe : Executable) (args : List Value) (symbols : SymbolTable) : Outcome :=
  (exe.invoke args (.new symbols)).1

def callRecord (exe : Executable) (args : List Value) : Value :=
  .ofFields ((exe.params.map Param.name).zip args)

end Executable
end Archflow
