/-!
References to types: the five built-in types, and names that a symbol table may or may not
declare.
-/
namespace Archflow

inductive TypeRef where
  | any
  | integer
  | real
  | boolean
  | text
  | named (name : String)
deriving DecidableEq, Repr

namespace TypeRef

/-- The type a model text means by a name. Built-in types have synonyms. -/
def ofName (name : String) : TypeRef :=
  match name with
  | "" | "Any" | "Void" => .any
  | "Int" | "Integer" => .integer
  | "Real" | "Float" | "Number" => .real
  | "Boolean" | "Bool" => .boolean
  | "String" => .text
  | other => .named other

def label : TypeRef → String
  | .any => "Any"
  | .integer => "Integer"
  | .real => "Real"
  | .boolean => "Boolean"
  | .text => "String"
  | .named name => name

end TypeRef
end Archflow
