import Archflow.Json.Decode
import Archflow.PortRef
import Archflow.Stmt
import Archflow.SymbolTable

/-!
Types, references, expressions and statements as JSON, in both directions.
-/
namespace Archflow

namespace Direction

def toJson (direction : Direction) : Json := .text direction.text

def ofJson? : Json → Option Direction :=
  Json.toChoice? [("in", .input), ("out", .output), ("inout", .both)]

end Direction

namespace PortRef

def toJson (ref : PortRef) : Json :=
  .object [("component", .text ref.component), ("port", .text ref.port)]

def ofJson? (json : Json) : Option PortRef := do
  let [component, port] ← json.toFieldList? ["component", "port"] | none
  return ⟨← Json.required Json.toText? component, ← Json.required Json.toText? port⟩

end PortRef

namespace TypeRef

def toJson : TypeRef → Json
  | .any => .text "Any"
  | .integer => .text "Integer"
  | .real => .text "Real"
  | .boolean => .text "Boolean"
  | .text => .text "Text"
  | .named name => .tagged "Named" (.text name)

def ofJson? (json : Json) : Option TypeRef :=
  match json.toVariant? with
  | some ("Named", some content) => content.toText?.map TypeRef.named
  | _ => json.toChoice? [("Any", .any), ("Integer", .integer), ("Real", .real),
      ("Boolean", .boolean), ("Text", .text)]

end TypeRef

def Table.toJson {α : Type} (encode : α → Json) (table : Table α) : Json :=
  .object (table.toList.map fun entry => (entry.1, encode entry.2))

namespace SymbolTable

def toJson (symbols : SymbolTable) : Json :=
  .object [
    ("enums", symbols.enumerations.toJson (.ofList .text)),
    ("datatypes", symbols.datatypes.toJson (.ofList fun field => .array [.text field.1, field.2.toJson])),
    ("value_types", symbols.valueTypes.toJson TypeRef.toJson)]

def ofJson? (json : Json) : Option SymbolTable := do
  let [enumerations, datatypes, valueTypes] ←
    json.toFieldList? ["enums", "datatypes", "value_types"] | none
  return {
    enumerations := ← Json.required (Json.toTable? (Json.toList? Json.toText?)) enumerations
    datatypes := ← Json.required
      (Json.toTable? (Json.toList? (Json.toPair? Json.toText? TypeRef.ofJson?))) datatypes
    valueTypes := ← Json.required (Json.toTable? TypeRef.ofJson?) valueTypes }

end SymbolTable

namespace Expr

mutual

def toJson : Expr → Json
  | .const value => .tagged "Literal" value.toJson
  | .enumeral enumeration name => .tagged "EnumLiteral" (.object [
      ("enum_name", .ofOption .text enumeration), ("literal", .text name)])
  | .object type fields => .tagged "ObjectLiteral" (.object [
      ("type_name", .ofOption .text type), ("fields", .array (fieldsToJson fields))])
  | .variable name => .tagged "Variable" (.text name)
  | .field record name => .tagged "FieldAccess" (.object [
      ("object", record.toJson), ("field", .text name)])
  | .unary token operand => .tagged "Unary" (.object [
      ("op", .text token), ("operand", operand.toJson)])
  | .binary token left right => .tagged "Binary" (.object [
      ("op", .text token), ("left", left.toJson), ("right", right.toJson)])
termination_by structural expr => expr

def fieldsToJson : List (String × Expr) → List Json
  | [] => []
  | (name, value) :: rest => .array [.text name, value.toJson] :: fieldsToJson rest
termination_by structural fields => fields

end

def ofJsonWithin? : Nat → Json → Option Expr
  | 0, _ => none
  | fuel + 1, json => do
      let (tag, some content) ← json.toVariant? | none
      match tag with
      | "Literal" => content.toValue?.map Expr.const
      | "EnumLiteral" => do
          let [enumeration, name] ← content.toFieldList? ["enum_name", "literal"] | none
          return .enumeral (← Json.optional Json.toText? enumeration)
            (← Json.required Json.toText? name)
      | "ObjectLiteral" => do
          let [type, fields] ← content.toFieldList? ["type_name", "fields"] | none
          return .object (← Json.optional Json.toText? type)
            (← Json.required (Json.toList? (Json.toPair? Json.toText? (ofJsonWithin? fuel))) fields)
      | "Variable" => content.toText?.map Expr.variable
      | "FieldAccess" => do
          let [record, name] ← content.toFieldList? ["object", "field"] | none
          return .field (← Json.required (ofJsonWithin? fuel) record)
            (← Json.required Json.toText? name)
      | "Unary" => do
          let [token, operand] ← content.toFieldList? ["op", "operand"] | none
          return .unary (← Json.required Json.toText? token)
            (← Json.required (ofJsonWithin? fuel) operand)
      | "Binary" => do
          let [token, left, right] ← content.toFieldList? ["op", "left", "right"] | none
          return .binary (← Json.required Json.toText? token)
            (← Json.required (ofJsonWithin? fuel) left) (← Json.required (ofJsonWithin? fuel) right)
      | _ => none

def ofJson? (json : Json) : Option Expr := ofJsonWithin? json.height json

end Expr

namespace Stmt

mutual

def toJson : Stmt → Json
  | .declare name type init => .tagged "VariableDecl" (.object [
      ("name", .text name), ("ty", .ofOption TypeRef.toJson type), ("init", .ofOption Expr.toJson init)])
  | .assign target value => .tagged "Assign" (.object [
      ("target", .text target), ("value", value.toJson)])
  | .branch condition block arms otherwise => .tagged "If" (.object [
      ("condition", condition.toJson), ("then_branch", .array (blockToJson block)),
      ("else_ifs", .array (armsToJson arms)), ("else_branch", lastToJson otherwise)])
  | .ret value => .tagged "Return" value.toJson
termination_by structural stmt => stmt

def blockToJson : List Stmt → List Json
  | [] => []
  | stmt :: rest => stmt.toJson :: blockToJson rest
termination_by structural block => block

def armsToJson : List (Expr × List Stmt) → List Json
  | [] => []
  | (condition, block) :: rest =>
      .array [condition.toJson, .array (blockToJson block)] :: armsToJson rest
termination_by structural arms => arms

def lastToJson : Option (List Stmt) → Json
  | none => .null
  | some block => .array (blockToJson block)
termination_by structural last => last

end

def ofJsonWithin? : Nat → Json → Option Stmt
  | 0, _ => none
  | fuel + 1, json => do
      let (tag, some content) ← json.toVariant? | none
      match tag with
      | "VariableDecl" => do
          let [name, type, init] ← content.toFieldList? ["name", "ty", "init"] | none
          return .declare (← Json.required Json.toText? name)
            (← Json.optional TypeRef.ofJson? type) (← Json.optional Expr.ofJson? init)
      | "Assign" => do
          let [target, value] ← content.toFieldList? ["target", "value"] | none
          return .assign (← Json.required Json.toText? target) (← Json.required Expr.ofJson? value)
      | "If" => do
          let [condition, block, arms, otherwise] ←
            content.toFieldList? ["condition", "then_branch", "else_ifs", "else_branch"] | none
          let readBlock := Json.toList? (ofJsonWithin? fuel)
          return .branch (← Json.required Expr.ofJson? condition) (← Json.required readBlock block)
            (← Json.required (Json.toList? (Json.toPair? Expr.ofJson? readBlock)) arms)
            (← Json.optional readBlock otherwise)
      | "Return" => (Expr.ofJson? content).map Stmt.ret
      | _ => none

def ofJson? (json : Json) : Option Stmt := ofJsonWithin? json.height json

end Stmt
end Archflow
