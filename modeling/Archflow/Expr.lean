import Archflow.Operator
import Archflow.Value

/-!
Expressions and their text. The text puts parentheses exactly around the binary expressions that
bind less strongly than their place asks for; all binary operators group to the left.
-/
namespace Archflow

inductive Expr where
  | const (value : Value)
  /-- A literal of an enumeration, which may be left out. -/
  | enumeral (enumeration : Option String) (literal : String)
  /-- A record, checked against a type if one is given. -/
  | object (type : Option String) (fields : List (String × Expr))
  | variable (name : String)
  | field (record : Expr) (name : String)
  /-- Operators are kept as they were written. -/
  | unary (token : String) (operand : Expr)
  | binary (token : String) (left right : Expr)
deriving Repr

namespace Expr

instance : Inhabited Expr := ⟨.const .unknown⟩

/-- The strength of the operator that a token means; a token without a meaning binds loosest. -/
def tokenPrecedence (token : String) : Nat :=
  match BinaryOp.ofToken? token with
  | some op => op.precedence
  | none => 0

theorem tokenPrecedence_lt (token : String) : tokenPrecedence token < UnaryOp.precedence := by
  unfold tokenPrecedence
  split
  · next op _ => exact op.precedence_lt
  · decide

mutual

/-- The text of an expression in a place that asks for operators of some strength. Where `subst`
gives a text for a subexpression, that text stands in its place. -/
def renderAt (subst : Expr → Option String) (strength : Nat) (expr : Expr) : String :=
  match subst expr with
  | some text => text
  | none =>
    match expr with
    | .const value => value.render
    | .enumeral (some owner) literal => owner ++ "::" ++ literal
    | .enumeral none literal => literal
    | .object type fields =>
        (match type with
          | some name => name ++ " "
          | none => "") ++
        "\x7b" ++ ", ".intercalate (renderFields subst fields) ++ "\x7d"
    | .variable name => name
    | .field record name => renderAt subst (UnaryOp.precedence + 1) record ++ "." ++ name
    | .unary token operand => token ++ renderAt subst UnaryOp.precedence operand
    | .binary token left right =>
        let own := tokenPrecedence token
        let text := renderAt subst own left ++ " " ++ token ++ " " ++ renderAt subst (own + 1) right
        if own < strength then "(" ++ text ++ ")" else text
termination_by structural expr

def renderFields (subst : Expr → Option String) : List (String × Expr) → List String
  | [] => []
  | (name, value) :: rest => (name ++ " = " ++ renderAt subst 0 value) :: renderFields subst rest
termination_by structural fields => fields

end

def renderWith (expr : Expr) (subst : Expr → Option String) : String := renderAt subst 0 expr

def render (expr : Expr) : String := expr.renderWith fun _ => none

/-! The characters of the text. -/

/-- The characters of an expression in a place that asks for operators of some strength. -/
def charsAt (strength : Nat) (expr : Expr) : List Char :=
  (renderAt (fun _ => none) strength expr).toList

/-- The characters of a binary expression without parentheses around it. -/
def bareChars (token : String) (left right : Expr) : List Char :=
  left.charsAt (tokenPrecedence token) ++
    ' ' :: (token.toList ++ ' ' :: right.charsAt (tokenPrecedence token + 1))

theorem toList_render (expr : Expr) : expr.render.toList = expr.charsAt 0 := rfl

theorem charsAt_variable (strength : Nat) (name : String) :
    (Expr.variable name).charsAt strength = name.toList := rfl

theorem charsAt_field (strength : Nat) (record : Expr) (name : String) :
    (Expr.field record name).charsAt strength =
      record.charsAt (UnaryOp.precedence + 1) ++ '.' :: name.toList := by
  simp [charsAt, renderAt]

theorem charsAt_unary (strength : Nat) (token : String) (operand : Expr) :
    (Expr.unary token operand).charsAt strength =
      token.toList ++ operand.charsAt UnaryOp.precedence := by
  simp [charsAt, renderAt]

theorem charsAt_binary (strength : Nat) (token : String) (left right : Expr) :
    (Expr.binary token left right).charsAt strength =
      if tokenPrecedence token < strength then '(' :: (bareChars token left right ++ [')'])
      else bareChars token left right := by
  unfold charsAt
  rw [renderAt]
  dsimp only
  split <;> simp [bareChars, charsAt]

end Expr
end Archflow
