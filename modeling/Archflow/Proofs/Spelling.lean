import Archflow.Expr
import Archflow.PortRef

/-!
The text of unary operators and field accesses. A prefix operator is written right before its operand
and a field access right behind its record, so two laws leave the text as it is: an access may move
into the operand of a prefix operator, and `not` may become the beginning of the name behind it. Two
expressions have the same text exactly if these laws connect them (`same_text_iff_conflated`).
Where no law can be applied from left to right, the text identifies the expression
(`settled_injective`).
-/
namespace Archflow

/-- The name has none of the characters that prefix operators and field accesses are written with. -/
def PlainName (name : String) : Prop := ∀ c ∈ name.toList, c ≠ '.' ∧ c ≠ '!' ∧ c ≠ '-'

namespace UnaryOp

theorem token_cases {token : String} {op : UnaryOp} (h : ofToken? token = some op) :
    token = "!" ∨ token = "not" ∨ token = "-" := by
  unfold ofToken? at h
  split at h
  · exact .inl rfl
  · exact .inr (.inl rfl)
  · exact .inr (.inr rfl)
  · cases h

end UnaryOp

namespace Expr

/-- The expression is built from a variable by prefix operators and field accesses. -/
inductive Affixed : Expr → Prop where
  | name {name : String} (plain : PlainName name) : Affixed (.variable name)
  | operator {token : String} {op : UnaryOp} {operand : Expr}
      (known : UnaryOp.ofToken? token = some op) (operand_affixed : Affixed operand) :
      Affixed (.unary token operand)
  | access {record : Expr} {name : String} (plain : PlainName name)
      (record_affixed : Affixed record) : Affixed (.field record name)

/-- The expressions are connected by the two laws that keep the text. -/
inductive Conflated : Expr → Expr → Prop where
  | refl (expr : Expr) : Conflated expr expr
  | symm {expr other : Expr} (h : Conflated expr other) : Conflated other expr
  | trans {expr other third : Expr} (h : Conflated expr other) (h' : Conflated other third) :
      Conflated expr third
  | unary (token : String) {expr other : Expr} (h : Conflated expr other) :
      Conflated (.unary token expr) (.unary token other)
  | field (name : String) {expr other : Expr} (h : Conflated expr other) :
      Conflated (.field expr name) (.field other name)
  /-- The access is to a field of the operand. -/
  | inward (token : String) (expr : Expr) (name : String) :
      Conflated (.field (.unary token expr) name) (.unary token (.field expr name))
  /-- The operator belongs to the name. -/
  | joined (name : String) :
      Conflated (.unary "not" (.variable name)) (.variable ("not" ++ name))

/-- Only field accesses stand between the expression and its variable. -/
def isPath : Expr → Bool
  | .variable _ => true
  | .field record _ => record.isPath
  | _ => false

/-- No field of a prefix operator is accessed, and no `not` stands right before a name. -/
def isSettled : Expr → Bool
  | .variable _ => true
  | .field record _ => record.isPath
  | .unary token operand => operand.isSettled && !(token == "not" && operand.isPath)
  | _ => false

/-! Connected expressions have the same text. -/

/-- A place that asks for more than any binary operator has no other text than the strongest one. -/
theorem charsAt_of_le {strength : Nat} (h : UnaryOp.precedence ≤ strength) (expr : Expr) :
    expr.charsAt strength = expr.charsAt UnaryOp.precedence := by
  match expr with
  | .binary token left right =>
    have hweak := tokenPrecedence_lt token
    rw [charsAt_binary, charsAt_binary, if_pos (by omega), if_pos hweak]
  | .enumeral none _ | .enumeral (some _) _ | .const _ | .object _ _ | .variable _ | .field _ _
  | .unary _ _ => rfl

theorem charsAt_conflated {expr other : Expr} (h : Conflated expr other) (strength : Nat) :
    expr.charsAt strength = other.charsAt strength := by
  induction h generalizing strength with
  | refl expr => rfl
  | symm _ ih => exact (ih strength).symm
  | trans _ _ ih ih' => exact (ih strength).trans (ih' strength)
  | unary token _ ih => rw [charsAt_unary, charsAt_unary, ih]
  | field name _ ih => rw [charsAt_field, charsAt_field, ih]
  | inward token expr name =>
    rw [charsAt_field, charsAt_unary, charsAt_unary, charsAt_field, charsAt_of_le (Nat.le_succ _)]
    simp
  | joined name => simp [charsAt_unary, charsAt_variable]

/-! Every expression is connected with a settled one. -/

/-- A name takes in the `not` in front of its path. -/
theorem exists_path_of_not {expr : Expr} (h : expr.Affixed) (hpath : expr.isPath = true) :
    ∃ other, other.Affixed ∧ other.isPath = true ∧ Conflated (.unary "not" expr) other := by
  induction h with
  | @name name hplain =>
    refine ⟨.variable ("not" ++ name), .name ?_, rfl, .joined name⟩
    intro c hc
    rw [String.toList_append, List.mem_append] at hc
    rcases hc with hc | hc
    · simp at hc
      rcases hc with rfl | rfl | rfl <;> decide
    · exact hplain c hc
  | operator hknown _ _ => cases hpath
  | @access record name hplain _ ih =>
    obtain ⟨other, hother, hotherPath, hconflated⟩ := ih hpath
    exact ⟨.field other name, .access hplain hother, hotherPath,
      (Conflated.inward "not" record name).symm.trans (.field name hconflated)⟩

/-- An access moves through all prefix operators. -/
theorem exists_settled_of_field {expr : Expr} {name : String} (h : expr.Affixed)
    (hplain : PlainName name) (hsettled : expr.isSettled = true) :
    ∃ other, other.Affixed ∧ other.isSettled = true ∧ other.isPath = expr.isPath ∧
      Conflated (.field expr name) other := by
  induction h with
  | name hname => exact ⟨_, .access hplain (.name hname), rfl, rfl, .refl _⟩
  | access hname hrecord _ =>
    exact ⟨_, .access hplain (.access hname hrecord), hsettled, rfl, .refl _⟩
  | @operator token op operand hknown _ ih =>
    simp only [isSettled, Bool.and_eq_true] at hsettled
    obtain ⟨other, hother, hotherSettled, hpath, hconflated⟩ := ih hsettled.1
    refine ⟨.unary token other, .operator hknown hother, ?_, rfl,
      (Conflated.inward token operand name).trans (.unary token hconflated)⟩
    simp only [isSettled, hotherSettled, hpath, hsettled.2, Bool.and_self]

theorem exists_settled {expr : Expr} (h : expr.Affixed) :
    ∃ other, other.Affixed ∧ other.isSettled = true ∧ Conflated expr other := by
  induction h with
  | name hplain => exact ⟨_, .name hplain, rfl, .refl _⟩
  | @operator token op operand hknown _ ih =>
    obtain ⟨other, hother, hsettled, hconflated⟩ := ih
    by_cases hword : token = "not" ∧ other.isPath = true
    · obtain ⟨rfl, hpath⟩ := hword
      obtain ⟨joined, hjoined, hjoinedPath, hjoinedConflated⟩ := exists_path_of_not hother hpath
      refine ⟨joined, hjoined, ?_, (Conflated.unary "not" hconflated).trans hjoinedConflated⟩
      cases hjoined with
      | name _ => rfl
      | access _ _ => exact hjoinedPath
      | operator _ _ => cases hjoinedPath
    · refine ⟨.unary token other, .operator hknown hother, ?_, .unary token hconflated⟩
      have hapart : (token == "not" && other.isPath) = false := by
        rw [← Bool.not_eq_true, Bool.and_eq_true, beq_iff_eq]
        exact hword
      simp only [isSettled, hsettled, hapart, Bool.not_false, Bool.and_self]
  | @access record name hplain _ ih =>
    obtain ⟨other, hother, hsettled, hconflated⟩ := ih
    obtain ⟨moved, hmoved, hmovedSettled, -, hmovedConflated⟩ :=
      exists_settled_of_field hother hplain hsettled
    exact ⟨moved, hmoved, hmovedSettled, (Conflated.field name hconflated).trans hmovedConflated⟩

/-! Settled expressions are identified by their text. -/

/-- The character is written for an operator and for nothing else. -/
def IsSign (c : Char) : Prop := c = '!' ∨ c = '-'

theorem not_isSign_of_plain {name : String} (h : PlainName name) : ∀ c ∈ name.toList, ¬ IsSign c := by
  rintro c hc (rfl | rfl)
  · exact (h _ hc).2.1 rfl
  · exact (h _ hc).2.2 rfl

theorem dot_not_mem {name : String} (h : PlainName name) : '.' ∉ name.toList :=
  fun hmem => (h '.' hmem).1 rfl

theorem not_isSign_of_path {expr : Expr} (h : expr.Affixed) (hpath : expr.isPath = true)
    (strength : Nat) : ∀ c ∈ expr.charsAt strength, ¬ IsSign c := by
  induction h generalizing strength with
  | name hplain => exact not_isSign_of_plain hplain
  | operator _ _ _ => cases hpath
  | access hplain _ ih =>
    rw [charsAt_field]
    intro c hc
    rcases List.mem_append.1 hc with hrecord | hname
    · exact ih hpath _ c hrecord
    · rcases List.mem_cons.1 hname with rfl | hname
      · simp [IsSign]
      · exact not_isSign_of_plain hplain c hname

/-- A settled expression with an operator has an operator that is no word. -/
theorem exists_isSign {expr : Expr} (h : expr.Affixed) (hsettled : expr.isSettled = true)
    (hpath : expr.isPath = false) (strength : Nat) : ∃ c ∈ expr.charsAt strength, IsSign c := by
  induction h generalizing strength with
  | name _ => cases hpath
  | access _ _ _ =>
    rw [isSettled] at hsettled
    rw [isPath, hsettled] at hpath
    cases hpath
  | @operator token op operand hknown _ ih =>
    simp only [isSettled, Bool.and_eq_true] at hsettled
    rw [charsAt_unary]
    rcases UnaryOp.token_cases hknown with rfl | rfl | rfl
    · exact ⟨'!', by simp, .inl rfl⟩
    · have hoperand : operand.isPath = false := by simpa using hsettled.2
      obtain ⟨c, hc, hsign⟩ := ih hsettled.1 hoperand UnaryOp.precedence
      exact ⟨c, List.mem_append_right _ hc, hsign⟩
    · exact ⟨'-', by simp, .inr rfl⟩

/-- The last dot of a path separates the last access. -/
theorem path_injective {expr other : Expr} (h : expr.Affixed) (h' : other.Affixed)
    (hpath : expr.isPath = true) (hpath' : other.isPath = true) {strength strength' : Nat}
    (htext : expr.charsAt strength = other.charsAt strength') : expr = other := by
  induction h generalizing other strength strength' with
  | operator _ _ _ => cases hpath
  | @name name hplain =>
    cases h' with
    | operator _ _ => cases hpath'
    | name hplain' => exact congrArg Expr.variable (String.toList_inj.1 htext)
    | access hplain' hrecord' =>
      rw [charsAt_variable, charsAt_field] at htext
      have hdot := dot_not_mem hplain
      rw [htext] at hdot
      simp at hdot
  | @access record name hplain _ ih =>
    cases h' with
    | operator _ _ => cases hpath'
    | name hplain' =>
      rw [charsAt_variable, charsAt_field] at htext
      have hdot := dot_not_mem hplain'
      rw [← htext] at hdot
      simp at hdot
    | @access record' name' hplain' hrecord' =>
      rw [charsAt_field, charsAt_field] at htext
      have hsplit := PortRef.splitAtLastDot_append (record.charsAt (UnaryOp.precedence + 1))
        (dot_not_mem hplain)
      rw [htext, PortRef.splitAtLastDot_append _ (dot_not_mem hplain')] at hsplit
      simp only [Option.some.injEq, Prod.mk.injEq] at hsplit
      obtain ⟨hrecord, hname⟩ := hsplit
      rw [ih hrecord' hpath hpath' hrecord.symm, String.toList_inj.1 hname]

/-- A text without signs is that of a path. -/
theorem isPath_of_text {expr other : Expr} (h : expr.Affixed) (h' : other.Affixed)
    (hpath : expr.isPath = true) (hsettled' : other.isSettled = true) {strength strength' : Nat}
    (htext : expr.charsAt strength = other.charsAt strength') : other.isPath = true := by
  rw [← Bool.not_eq_false]
  intro hother
  obtain ⟨c, hc, hsign⟩ := exists_isSign h' hsettled' hother strength'
  exact not_isSign_of_path h hpath strength c (htext ▸ hc) hsign

theorem settled_injective {expr other : Expr} (h : expr.Affixed) (h' : other.Affixed)
    (hsettled : expr.isSettled = true) (hsettled' : other.isSettled = true)
    {strength strength' : Nat} (htext : expr.charsAt strength = other.charsAt strength') :
    expr = other := by
  induction h generalizing other strength strength' with
  | name hplain =>
    exact path_injective (.name hplain) h' rfl
      (isPath_of_text (.name hplain) h' rfl hsettled' htext) htext
  | access hplain hrecord _ =>
    exact path_injective (.access hplain hrecord) h' hsettled
      (isPath_of_text (.access hplain hrecord) h' hsettled hsettled' htext) htext
  | @operator token op operand hknown hoperand ih =>
    have hexpr : (Expr.unary token operand).Affixed := .operator hknown hoperand
    cases h' with
    | name hplain' => cases isPath_of_text (.name hplain') hexpr rfl hsettled htext.symm
    | access hplain' hrecord' =>
      cases isPath_of_text (.access hplain' hrecord') hexpr hsettled' hsettled htext.symm
    | @operator token' op' operand' hknown' hoperand' =>
      simp only [isSettled, Bool.and_eq_true] at hsettled hsettled'
      rw [charsAt_unary, charsAt_unary] at htext
      -- Different operators begin with different characters.
      have htoken : token = token' := by
        rcases UnaryOp.token_cases hknown with rfl | rfl | rfl <;>
          rcases UnaryOp.token_cases hknown' with rfl | rfl | rfl <;> simp_all
      subst htoken
      rw [ih hoperand' hsettled.1 hsettled'.1 (List.append_cancel_left htext)]

/-- Two expressions have the same text exactly if they are connected by moving field accesses into
the operands of prefix operators and by reading `not` as the beginning of a name. In particular,
different settled expressions have different texts. -/
theorem same_text_iff_conflated {expr other : Expr} (h : expr.Affixed) (h' : other.Affixed) :
    (expr.render = other.render ↔ Conflated expr other) ∧
      (expr.isSettled = true → other.isSettled = true → expr.render = other.render →
        expr = other) := by
  have htext : expr.render = other.render ↔ expr.charsAt 0 = other.charsAt 0 := by
    rw [← String.toList_inj, toList_render, toList_render]
  rw [htext]
  refine ⟨⟨?_, fun hconflated => charsAt_conflated hconflated 0⟩,
    fun hsettled hsettled' => settled_injective h h' hsettled hsettled'⟩
  intro hchars
  obtain ⟨settled, haffixed, hsettled, hconflated⟩ := exists_settled h
  obtain ⟨settled', haffixed', hsettled', hconflated'⟩ := exists_settled h'
  have hsame : settled.charsAt 0 = settled'.charsAt 0 := by
    rw [← charsAt_conflated hconflated, hchars, charsAt_conflated hconflated']
  rw [← settled_injective haffixed haffixed' hsettled hsettled' hsame] at hconflated'
  exact hconflated.trans hconflated'.symm

/-- A path with two accesses behind a sign, and the two accesses of what the sign stands before. -/
theorem same_text_iff_conflated_accesses :
    let inner := Expr.unary "-" (.field (.field (.variable "x") "f") "g")
    let outer := Expr.field (.field (.unary "-" (.variable "x")) "f") "g"
    inner.Affixed ∧ outer.Affixed ∧ inner.render = outer.render ∧ Conflated inner outer := by
  intro inner outer
  have hinner : inner.Affixed := .operator rfl
    (.access (by simp [PlainName]) (.access (by simp [PlainName]) (.name (by simp [PlainName]))))
  have houter : outer.Affixed := .access (by simp [PlainName]) (.access (by simp [PlainName])
    (.operator rfl (.name (by simp [PlainName]))))
  have htext : inner.render = outer.render := by decide +kernel
  exact ⟨hinner, houter, htext, (same_text_iff_conflated hinner houter).1.1 htext⟩

/-- The texts `-x.f` and `notx` belong to two expressions each. -/
theorem spelling_ambiguous :
    let x := Expr.variable "x"
    ((Expr.field (.unary "-" x) "f").Affixed ∧ (Expr.unary "-" (.field x "f")).Affixed ∧
      Expr.field (.unary "-" x) "f" ≠ .unary "-" (.field x "f") ∧
      (Expr.field (.unary "-" x) "f").render = "-x.f" ∧
      (Expr.unary "-" (.field x "f")).render = "-x.f") ∧
    (Expr.unary "not" x).Affixed ∧ (Expr.variable "notx").Affixed ∧
      Expr.unary "not" x ≠ .variable "notx" ∧
      (Expr.unary "not" x).render = "notx" ∧ (Expr.variable "notx").render = "notx" := by
  intro x
  have hx : x.Affixed := .name (by simp [PlainName])
  refine ⟨⟨.access (by simp [PlainName]) (.operator rfl hx),
    .operator rfl (.access (by simp [PlainName]) hx), by simp, ?_, ?_⟩,
    .operator rfl hx, .name (by simp [PlainName]), by simp [x], ?_, ?_⟩
  all_goals decide +kernel

end Expr
end Archflow
