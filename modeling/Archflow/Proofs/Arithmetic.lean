import Archflow.Expr.Eval
import Mathlib

/-!
Arithmetic on integers. A sum, difference, product or negation is the exact one or is refused because
64 bits cannot hold it. Quotient and remainder are refused together, for a zero divisor and for the
one quotient that 64 bits cannot hold; apart from that, a quotient is whole exactly if nothing
remains (`integers_exact_or_refused`).
-/
namespace Archflow

def Fits64 (n : Int) : Prop := -2 ^ 63 ≤ n ∧ n < 2 ^ 63

instance (n : Int) : Decidable (Fits64 n) := inferInstanceAs (Decidable (_ ∧ _))

theorem fits64_toInt (i : Int64) : Fits64 i.toInt := ⟨i.le_toInt, i.toInt_lt⟩

theorem int64?_of_fits {n : Int} (h : Fits64 n) : ∃ i : Int64, int64? n = some i ∧ i.toInt = n := by
  obtain ⟨hlow, hhigh⟩ := h
  have hmax : Int64.maxValue.toInt = 2 ^ 63 - 1 := rfl
  refine ⟨.ofInt n, if_pos ⟨hlow, ?_⟩, Int64.toInt_ofInt_of_le hlow hhigh⟩
  omega

theorem int64?_of_not_fits {n : Int} (h : ¬ Fits64 n) : int64? n = none := by
  have hmax : Int64.maxValue.toInt = 2 ^ 63 - 1 := rfl
  refine if_neg ?_
  rintro ⟨hlow, hhigh⟩
  exact h ⟨hlow, by omega⟩

def Refused (outcome : Except Fault Value) : Prop := ∃ cause, outcome = .error (.arithmetic cause)

/-- The outcome is the integer that is equal to a whole number. -/
def IsInteger (outcome : Except Fault Value) (n : Int) : Prop :=
  ∃ i : Int64, outcome = .ok (.int i) ∧ i.toInt = n

/-- The outcome is a whole number if 64 bits can hold it, and a fault otherwise. -/
def ExactOrRefused (outcome : Except Fault Value) (n : Int) : Prop :=
  (Fits64 n → IsInteger outcome n) ∧ (¬ Fits64 n → Refused outcome)

theorem Refused.not_ok {outcome : Except Fault Value} (h : Refused outcome) (value : Value) :
    outcome ≠ .ok value := by
  obtain ⟨cause, rfl⟩ := h
  exact nofun

theorem IsInteger.not_refused {outcome : Except Fault Value} {n : Int} (h : IsInteger outcome n) :
    ¬ Refused outcome := by
  obtain ⟨i, houtcome, _⟩ := h
  exact fun hrefused => hrefused.not_ok _ houtcome

/-- The quotient does not exist, or 64 bits cannot hold it. -/
def NoQuotient (a b : Int64) : Prop := b = 0 ∨ a = Int64.minValue ∧ b = -1

/-- The remainder of a division that goes towards zero. -/
structure IsRemainder (a b r : Int) : Prop where
  division : a = b * a.tdiv b + r
  small : |r| < |b|
  signed : r = 0 ∨ r.sign = a.sign

structure Division (a b : Int64) (quotient remainder : Except Fault Value) : Prop where
  quotient_refused : Refused quotient ↔ NoQuotient a b
  remainder_refused : Refused remainder ↔ NoQuotient a b
  exact : ¬ NoQuotient a b → b.toInt ∣ a.toInt →
    ∃ n, a.toInt = b.toInt * n ∧ IsInteger quotient n
  inexact : ¬ NoQuotient a b → ¬ b.toInt ∣ a.toInt →
    quotient = .ok (.real (Value.realOfInt a / Value.realOfInt b))
  remains : ¬ NoQuotient a b → ∃ r, IsRemainder a.toInt b.toInt r ∧ IsInteger remainder r
  whole_iff : (∃ i, quotient = .ok (.int i)) ↔ remainder = .ok (.int 0)

/-! Quotients and remainders of whole numbers. -/

section
variable {a b : Int64}

theorem toInt_eq_zero_iff : b.toInt = 0 ↔ b = 0 := Int64.toInt_inj (y := 0)

theorem toInt_ne_zero (h : ¬ NoQuotient a b) : b.toInt ≠ 0 :=
  fun hzero => h (.inl (toInt_eq_zero_iff.1 hzero))

/-- The only quotient that is too large is that of the least integer and minus one. -/
theorem fits64_tdiv_iff (hb : b.toInt ≠ 0) : Fits64 (a.toInt.tdiv b.toInt) ↔ ¬ NoQuotient a b := by
  constructor
  · rintro ⟨_, hhigh⟩ (hzero | ⟨rfl, rfl⟩)
    · exact hb (toInt_eq_zero_iff.2 hzero)
    · exact absurd hhigh (by decide)
  · intro h
    obtain ⟨hlow, hhigh⟩ := fits64_toInt a
    have hcases : b.toInt = 1 ∨ b.toInt = -1 ∨ 2 ≤ b.toInt.natAbs := by omega
    rcases hcases with hone | hminus | hlarge
    · rw [hone, Int.tdiv_one]
      exact fits64_toInt a
    · have hleast : a.toInt ≠ -2 ^ 63 := by
        intro hmin
        exact h (.inr ⟨Int64.toInt_inj.1 hmin, Int64.toInt_inj.1 hminus⟩)
      rw [hminus, Int.tdiv_neg, Int.tdiv_one]
      exact ⟨by omega, by omega⟩
    · have hhalf : (a.toInt.tdiv b.toInt).natAbs ≤ a.toInt.natAbs / 2 := by
        rw [Int.natAbs_tdiv]
        exact Nat.div_le_div_left hlarge (by decide)
      exact ⟨by omega, by omega⟩

theorem natAbs_tmod_lt {m n : Int} (hn : n ≠ 0) : (m.tmod n).natAbs < n.natAbs := by
  rw [Int.natAbs_tmod]
  exact Nat.mod_lt _ (Int.natAbs_pos.2 hn)

theorem fits64_tmod (hb : b.toInt ≠ 0) : Fits64 (a.toInt.tmod b.toInt) := by
  have hsmall := natAbs_tmod_lt (m := a.toInt) hb
  obtain ⟨hlow, hhigh⟩ := fits64_toInt b
  exact ⟨by omega, by omega⟩

theorem isRemainder_tmod {m n : Int} (hn : n ≠ 0) : IsRemainder m n (m.tmod n) where
  division := (Int.mul_tdiv_add_tmod m n).symm
  small := by
    have hsmall := natAbs_tmod_lt (m := m) hn
    rw [Int.abs_eq_natAbs, Int.abs_eq_natAbs]
    omega
  signed := by
    by_cases hdvd : n ∣ m
    · exact .inl (Int.dvd_iff_tmod_eq_zero.1 hdvd)
    · exact .inr (by rw [Int.sign_tmod, if_neg hdvd])

end

/-! The operations. -/

namespace ArithmeticOp

variable (op : ArithmeticOp) (a b : Int64)

theorem exactly_of_fits {n : Int} (h : Fits64 n) : IsInteger (op.exactly a b n) n := by
  obtain ⟨i, hi, hsame⟩ := int64?_of_fits h
  exact ⟨i, by rw [exactly, hi], hsame⟩

theorem exactly_of_not_fits {n : Int} (h : ¬ Fits64 n) : Refused (op.exactly a b n) :=
  ⟨_, by rw [exactly, int64?_of_not_fits h]⟩

theorem exactly_exactOrRefused (n : Int) : ExactOrRefused (op.exactly a b n) n :=
  ⟨op.exactly_of_fits a b, op.exactly_of_not_fits a b⟩

variable {a b}

theorem refused_of_noQuotient (h : NoQuotient a b) :
    Refused (ArithmeticOp.div.applyInt a b) ∧ Refused (ArithmeticOp.mod.applyInt a b) := by
  rcases h with rfl | ⟨rfl, rfl⟩ <;> exact ⟨⟨_, rfl⟩, ⟨_, rfl⟩⟩

theorem applyInt_div (hb : b.toInt ≠ 0) :
    ArithmeticOp.div.applyInt a b =
      if b.toInt ∣ a.toInt then ArithmeticOp.div.exactly a b (a.toInt.tdiv b.toInt)
      else .ok (.real (Value.realOfInt a / Value.realOfInt b)) := by
  simp only [applyInt, if_neg hb, Int.dvd_iff_tmod_eq_zero]

theorem applyInt_mod (h : ¬ NoQuotient a b) :
    IsInteger (ArithmeticOp.mod.applyInt a b) (a.toInt.tmod b.toInt) := by
  have hb := toInt_ne_zero h
  obtain ⟨i, hi, _⟩ := int64?_of_fits ((fits64_tdiv_iff hb).2 h)
  simp only [applyInt, if_neg hb, hi]
  exact exactly_of_fits .mod a b (fits64_tmod hb)

theorem applyInt_div_of_dvd (h : ¬ NoQuotient a b) (hdvd : b.toInt ∣ a.toInt) :
    IsInteger (ArithmeticOp.div.applyInt a b) (a.toInt.tdiv b.toInt) := by
  have hb := toInt_ne_zero h
  rw [applyInt_div hb, if_pos hdvd]
  exact exactly_of_fits .div a b ((fits64_tdiv_iff hb).2 h)

theorem applyInt_div_of_not_dvd (h : ¬ NoQuotient a b) (hdvd : ¬ b.toInt ∣ a.toInt) :
    ArithmeticOp.div.applyInt a b = .ok (.real (Value.realOfInt a / Value.realOfInt b)) := by
  rw [applyInt_div (toInt_ne_zero h), if_neg hdvd]

theorem applyInt_division (a b : Int64) :
    Division a b (ArithmeticOp.div.applyInt a b) (ArithmeticOp.mod.applyInt a b) := by
  by_cases h : NoQuotient a b
  · obtain ⟨hquotient, hremainder⟩ := refused_of_noQuotient h
    refine ⟨iff_of_true hquotient h, iff_of_true hremainder h, absurd h, absurd h, absurd h, ?_⟩
    refine iff_of_false ?_ (hremainder.not_ok _)
    rintro ⟨i, hi⟩
    exact hquotient.not_ok _ hi
  have hmod := applyInt_mod h
  have hrefused : ¬ Refused (ArithmeticOp.mod.applyInt a b) := hmod.not_refused
  have hremains := isRemainder_tmod (m := a.toInt) (toInt_ne_zero h)
  have hnothing : ArithmeticOp.mod.applyInt a b = .ok (.int 0) ↔ b.toInt ∣ a.toInt := by
    obtain ⟨i, hi, hsame⟩ := hmod
    rw [hi, Int.dvd_iff_tmod_eq_zero, ← hsame, toInt_eq_zero_iff]
    simp
  by_cases hdvd : b.toInt ∣ a.toInt
  · have hdiv := applyInt_div_of_dvd h hdvd
    have hwhole : ∃ i, ArithmeticOp.div.applyInt a b = .ok (.int i) := hdiv.imp fun i hi => hi.1
    exact {
      quotient_refused := iff_of_false hdiv.not_refused h
      remainder_refused := iff_of_false hrefused h
      exact := fun _ _ => ⟨_, (Int.mul_tdiv_cancel' hdvd).symm, hdiv⟩
      inexact := fun _ hnot => absurd hdvd hnot
      remains := fun _ => ⟨_, hremains, hmod⟩
      whole_iff := iff_of_true hwhole (hnothing.2 hdvd) }
  · have hdiv := applyInt_div_of_not_dvd h hdvd
    exact {
      quotient_refused := iff_of_false (fun hquotient => hquotient.not_ok _ hdiv) h
      remainder_refused := iff_of_false hrefused h
      exact := fun _ hwhole => absurd hwhole hdvd
      inexact := fun _ _ => hdiv
      remains := fun _ => ⟨_, hremains, hmod⟩
      whole_iff := iff_of_false (by rw [hdiv]; simp) (mt hnothing.1 hdvd) }

end ArithmeticOp

theorem UnaryOp.negate_exactOrRefused (a : Int64) :
    ExactOrRefused (UnaryOp.negate.apply (.int a)) (-a.toInt) := by
  constructor
  · intro h
    obtain ⟨i, hi, hsame⟩ := int64?_of_fits h
    exact ⟨i, by simp only [apply, hi], hsame⟩
  · intro h
    exact ⟨_, by simp only [apply, int64?_of_not_fits h]; rfl⟩

theorem fits64_neg_iff (a : Int64) : Fits64 (-a.toInt) ↔ a ≠ Int64.minValue := by
  obtain ⟨hlow, hhigh⟩ := fits64_toInt a
  have hmin : a = Int64.minValue ↔ a.toInt = -2 ^ 63 := (Int64.toInt_inj (y := Int64.minValue)).symm
  rw [ne_eq, hmin, Fits64]
  omega

namespace Expr

variable {env : Env} {left right : Expr} {a b : Int64}

theorem eval_arithmetic (hleft : left.eval env = .ok (.int a)) (hright : right.eval env = .ok (.int b))
    {token : String} (op : ArithmeticOp) (htoken : BinaryOp.ofToken? token = some (.arithmetic op)) :
    (Expr.binary token left right).eval env = op.applyInt a b := by
  have hparse : BinaryOp.parse token = .ok (.arithmetic op) := by rw [BinaryOp.parse, htoken]
  simp only [eval, hparse, hleft, hright, bind, Except.bind]
  cases op <;> rfl

/-- Arithmetic on integers is exact or refused. -/
theorem integers_exact_or_refused (hleft : left.eval env = .ok (.int a))
    (hright : right.eval env = .ok (.int b)) :
    ExactOrRefused ((Expr.binary "+" left right).eval env) (a.toInt + b.toInt) ∧
      ExactOrRefused ((Expr.binary "-" left right).eval env) (a.toInt - b.toInt) ∧
      ExactOrRefused ((Expr.binary "*" left right).eval env) (a.toInt * b.toInt) ∧
      Division a b ((Expr.binary "/" left right).eval env) ((Expr.binary "%" left right).eval env) ∧
      ExactOrRefused ((Expr.unary "-" left).eval env) (-a.toInt) ∧
      (Refused ((Expr.unary "-" left).eval env) ↔ a = Int64.minValue) := by
  have hnegate : (Expr.unary "-" left).eval env = UnaryOp.negate.apply (.int a) := by
    simp only [eval, hleft, bind, Except.bind]
    rfl
  rw [eval_arithmetic hleft hright .add rfl, eval_arithmetic hleft hright .sub rfl,
    eval_arithmetic hleft hright .mul rfl, eval_arithmetic hleft hright .div rfl,
    eval_arithmetic hleft hright .mod rfl, hnegate]
  have hnegation := UnaryOp.negate_exactOrRefused a
  refine ⟨ArithmeticOp.exactly_exactOrRefused .., ArithmeticOp.exactly_exactOrRefused ..,
    ArithmeticOp.exactly_exactOrRefused .., ArithmeticOp.applyInt_division a b, hnegation, ?_⟩
  constructor
  · intro hrefused
    by_contra hne
    exact (hnegation.1 ((fits64_neg_iff a).2 hne)).not_refused hrefused
  · intro hmin
    exact hnegation.2 (mt (fits64_neg_iff a).1 (not_not.2 hmin))

/-- At the least integer and minus one only the difference is in range. -/
theorem integers_exact_or_refused_least :
    let env := ((Env.new {}).bind "level" (.int Int64.minValue)).bind "step" (.int (-1))
    let level := Expr.variable "level"
    let step := Expr.variable "step"
    level.eval env = .ok (.int Int64.minValue) ∧ step.eval env = .ok (.int (-1)) ∧
      Refused ((Expr.binary "+" level step).eval env) ∧
      IsInteger ((Expr.binary "-" level step).eval env) (-2 ^ 63 + 1) ∧
      Refused ((Expr.binary "*" level step).eval env) ∧
      Refused ((Expr.binary "/" level step).eval env) ∧
      Refused ((Expr.binary "%" level step).eval env) ∧
      Refused ((Expr.unary "-" level).eval env) := by
  intro env level step
  have hlevel : level.eval env = .ok (.int Int64.minValue) := rfl
  have hstep : step.eval env = .ok (.int (-1)) := rfl
  have hnone : NoQuotient Int64.minValue (-1) := .inr ⟨rfl, rfl⟩
  obtain ⟨hsum, hdifference, hproduct, hdivision, _, hnegation⟩ :=
    integers_exact_or_refused hlevel hstep
  exact ⟨hlevel, hstep, hsum.2 (by decide), hdifference.1 (by decide), hproduct.2 (by decide),
    hdivision.quotient_refused.2 hnone, hdivision.remainder_refused.2 hnone, hnegation.2 rfl⟩

end Expr
end Archflow
