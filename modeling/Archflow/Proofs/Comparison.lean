import Archflow.Expr.Eval
import Archflow.Proofs.WholeReals

/-!
Comparisons of integers. Integers are compared as the nearest reals to them, so a comparison has the
truth of the relation between the integers rounded to 53 binary digits. It is the truth of the
relation between the integers themselves unless different integers are rounded to the same one, which
does not happen up to `2 ^ 53` (`comparisons_of_nearest`).
-/
namespace Archflow

open Binary64

namespace BinaryOp

def relation? : BinaryOp → Option (Int → Int → Bool)
  | .equal => some fun i j => decide (i = j)
  | .unequal => some fun i j => decide (i ≠ j)
  | .order .gt => some fun i j => decide (i > j)
  | .order .lt => some fun i j => decide (i < j)
  | .order .ge => some fun i j => decide (i ≥ j)
  | .order .le => some fun i j => decide (i ≤ j)
  | .arithmetic _ | .logic _ => none

end BinaryOp

namespace Value

theorem looselyEquals_int (a b : Int64) :
    (Value.int a).looselyEquals (.int b) = decide (nearest a.toInt = nearest b.toInt) :=
  (represents_realOfInt a).beq_eq (represents_realOfInt b)

theorem compare?_int (a b : Int64) :
    (Value.int a).compare? (.int b) = some (compare (nearest a.toInt) (nearest b.toInt)) := by
  have ha := represents_realOfInt a
  have hb := represents_realOfInt b
  change compareReals? (realOfInt a) (realOfInt b) = _
  rw [compareReals?, ha.beq_eq hb]
  rcases lt_trichotomy (nearest a.toInt) (nearest b.toInt) with hless | hsame | hgreater
  · rw [if_pos ((ha.lt_iff hb).2 hless), compare_lt_iff_lt.2 hless]
  · rw [if_neg (mt (ha.lt_iff hb).1 hsame.not_lt), if_neg (mt (hb.lt_iff ha).1 hsame.not_gt),
      if_pos (decide_eq_true hsame), compare_eq_iff_eq.2 hsame]
  · rw [if_neg (mt (ha.lt_iff hb).1 hgreater.not_gt), if_pos ((hb.lt_iff ha).2 hgreater),
      compare_gt_iff_gt.2 hgreater]

end Value

namespace BinaryOp

/-- A comparison only asks which integer is less and whether the two are equal. -/
theorem relation_congr {op : BinaryOp} {relation : Int → Int → Bool}
    (h : op.relation? = some relation) {i j k l : Int} (hless : i < j ↔ k < l) (hsame : i = j ↔ k = l) :
    relation i j = relation k l := by
  match op, h with
  | .equal, rfl | .unequal, rfl => simp only [hsame, ne_eq]
  | .order .gt, rfl | .order .lt, rfl | .order .ge, rfl | .order .le, rfl =>
    rw [decide_eq_decide]
    omega

theorem holds_compare {op : OrderOp} {relation : Int → Int → Bool}
    (h : (BinaryOp.order op).relation? = some relation) (i j : Int) :
    op.holds (compare i j) = relation i j := by
  rw [Bool.eq_iff_iff]
  match op, h with
  | .gt, rfl => simpa [OrderOp.holds] using compare_gt_iff_gt
  | .lt, rfl => simpa [OrderOp.holds] using compare_lt_iff_lt
  | .ge, rfl => simpa [OrderOp.holds] using compare_ge_iff_ge
  | .le, rfl => simpa [OrderOp.holds] using compare_le_iff_le

theorem apply_int {op : BinaryOp} {relation : Int → Int → Bool} (h : op.relation? = some relation)
    (a b : Int64) :
    op.apply (.int a) (.int b) = .ok (.bool (relation (nearest a.toInt) (nearest b.toInt))) := by
  match op, h with
  | .equal, rfl => rw [apply, Value.looselyEquals_int]
  | .unequal, rfl => simp only [apply, Value.looselyEquals_int, ne_eq, decide_not]
  | .order op, h => simp only [apply, Value.compare?_int, holds_compare h]

end BinaryOp

namespace Expr

/-- Every comparison of the two expressions has the truth of its relation between the integers. -/
def ComparedAs (env : Env) (left right : Expr) (i j : Int) : Prop :=
  ∀ token op relation, BinaryOp.ofToken? token = some op → op.relation? = some relation →
    (Expr.binary token left right).eval env = .ok (.bool (relation i j))

variable {env : Env} {left right : Expr} {a b : Int64}

theorem comparedAs_nearest (hleft : left.eval env = .ok (.int a))
    (hright : right.eval env = .ok (.int b)) :
    ComparedAs env left right (nearest a.toInt) (nearest b.toInt) := by
  intro token op relation htoken hrelation
  rw [← BinaryOp.apply_int hrelation]
  have hparse : BinaryOp.parse token = .ok op := by rw [BinaryOp.parse, htoken]
  cases op with
  | logic connective => cases hrelation
  | _ => simp only [eval, hparse, hleft, hright, bind, Except.bind]

theorem ComparedAs.congr {i j k l : Int} (h : ComparedAs env left right i j)
    (hless : i < j ↔ k < l) (hsame : i = j ↔ k = l) : ComparedAs env left right k l := by
  intro token op relation htoken hrelation
  rw [← BinaryOp.relation_congr hrelation hless hsame]
  exact h token op relation htoken hrelation

theorem ComparedAs.eq_iff {i j k l : Int} (h : ComparedAs env left right i j)
    (hother : ComparedAs env left right k l) : i = j ↔ k = l := by
  have hequal := (h "==" .equal _ rfl rfl).symm.trans (hother "==" .equal _ rfl rfl)
  simpa using hequal

/-- Comparisons of integers have the truth of their relations between the rounded integers. They are
exact if and only if rounding does not make different integers equal, and up to `2 ^ 53` it does
not. -/
theorem comparisons_of_nearest (hleft : left.eval env = .ok (.int a))
    (hright : right.eval env = .ok (.int b)) :
    ComparedAs env left right (nearest a.toInt) (nearest b.toInt) ∧
      (ComparedAs env left right a.toInt b.toInt ↔ (nearest a.toInt = nearest b.toInt → a = b)) ∧
      (a.toInt.natAbs ≤ 2 ^ 53 → b.toInt.natAbs ≤ 2 ^ 53 →
        ComparedAs env left right a.toInt b.toInt) := by
  have hnearest := comparedAs_nearest hleft hright
  refine ⟨hnearest, ⟨?_, ?_⟩, ?_⟩
  · intro hexact hsame
    exact Int64.toInt_inj.1 ((hnearest.eq_iff hexact).1 hsame)
  · intro happart
    have happart' : nearest a.toInt = nearest b.toInt → a.toInt = b.toInt :=
      fun hsame => congrArg Int64.toInt (happart hsame)
    exact hnearest.congr (nearest_lt_iff happart') ⟨happart', congrArg nearest⟩
  · intro ha hb
    rwa [nearest_of_natAbs_le ha, nearest_of_natAbs_le hb] at hnearest

/-- Two neighbours below the bound, the greater of them the bound itself. -/
theorem comparisons_of_nearest_bound :
    let env := ((Env.new {}).bind "level" (.int 9007199254740991)).bind "limit"
      (.int 9007199254740992)
    (Expr.variable "level").eval env = .ok (.int 9007199254740991) ∧
      (Expr.variable "limit").eval env = .ok (.int 9007199254740992) ∧
      ComparedAs env (.variable "level") (.variable "limit") 9007199254740991 9007199254740992 := by
  intro env
  have hlevel : (Expr.variable "level").eval env = .ok (.int 9007199254740991) := rfl
  have hlimit : (Expr.variable "limit").eval env = .ok (.int 9007199254740992) := rfl
  exact ⟨hlevel, hlimit, (comparisons_of_nearest hlevel hlimit).2.2 (by decide) (by decide)⟩

/-- The least two natural numbers that are compared as equal. -/
theorem comparisons_inexact :
    let left := Expr.const (.int 9007199254740992)
    let right := Expr.const (.int 9007199254740993)
    (9007199254740992 : Int64) ≠ 9007199254740993 ∧
      (Expr.binary "==" left right).eval (.new {}) = .ok (.bool true) ∧
      (Expr.binary "!=" left right).eval (.new {}) = .ok (.bool false) ∧
      (Expr.binary "<" left right).eval (.new {}) = .ok (.bool false) ∧
      (Expr.binary ">=" left right).eval (.new {}) = .ok (.bool true) := by
  intro left right
  have hleft : nearest (9007199254740992 : Int64).toInt = 9007199254740992 := by decide
  have hright : nearest (9007199254740993 : Int64).toInt = 9007199254740992 := by decide
  have hnearest : ComparedAs (.new {}) left right _ _ := comparedAs_nearest rfl rfl
  rw [hleft, hright] at hnearest
  exact ⟨by decide, hnearest "==" .equal _ rfl rfl, hnearest "!=" .unequal _ rfl rfl,
    hnearest "<" (.order .lt) _ rfl rfl, hnearest ">=" (.order .ge) _ rfl rfl⟩

end Expr
end Archflow
