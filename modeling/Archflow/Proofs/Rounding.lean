import Mathlib

/-!
Rounding to 53 binary digits. A natural number of more digits is replaced by the nearest multiple of
the distance that reals have there, of two equally near ones by the even multiple. Rounding keeps the
order of integers and changes none up to `2 ^ 53` (`nearest_monotone`, `nearest_of_natAbs_le`).
Rounding of significands does the same to products with powers of two (`roundWithAccuracy_exact`).
-/
namespace Archflow.Binary64

/-- Divide and round to the nearest number; of two equally near ones the even one is taken. -/
def halfEven (n unit : Nat) : Nat :=
  if 2 * (n % unit) < unit then n / unit
  else if 2 * (n % unit) = unit then n / unit + n / unit % 2
  else n / unit + 1

theorem halfEven_mul (n unit : Nat) {scale : Nat} (h : 0 < scale) :
    halfEven (n * scale) (unit * scale) = halfEven n unit := by
  have hless : 2 * (n % unit * scale) < unit * scale ↔ 2 * (n % unit) < unit := by
    rw [← Nat.mul_assoc, Nat.mul_lt_mul_right h]
  have hequal : 2 * (n % unit * scale) = unit * scale ↔ 2 * (n % unit) = unit := by
    rw [← Nat.mul_assoc, Nat.mul_left_inj h.ne']
  simp only [halfEven, Nat.mul_mod_mul_right, Nat.mul_div_mul_right _ _ h, hless, hequal]

theorem halfEven_of_multiple (n : Nat) {unit : Nat} (h : 0 < unit) : halfEven (n * unit) unit = n := by
  simp [halfEven, h]

theorem div_le_halfEven (n unit : Nat) : n / unit ≤ halfEven n unit := by
  unfold halfEven
  split_ifs <;> omega

theorem halfEven_le (n unit : Nat) : halfEven n unit ≤ n / unit + 1 := by
  unfold halfEven
  split_ifs <;> omega

theorem halfEven_mono {n m : Nat} (h : n ≤ m) (unit : Nat) : halfEven n unit ≤ halfEven m unit := by
  rcases (Nat.div_le_div_right h : n / unit ≤ m / unit).lt_or_eq with hless | hsame
  · calc halfEven n unit ≤ n / unit + 1 := halfEven_le n unit
      _ ≤ m / unit := hless
      _ ≤ halfEven m unit := div_le_halfEven m unit
  · have hrest : n % unit ≤ m % unit := by
      have hn := Nat.div_add_mod n unit
      have hm := Nat.div_add_mod m unit
      rw [hsame] at hn
      omega
    unfold halfEven
    rw [hsame]
    split_ifs <;> omega

/-! The nearest real to a whole number. -/

/-- The distance of neighbouring reals at a natural number, where they are no denser than the whole
numbers. -/
def grain (n : Nat) : Nat := 2 ^ (n.log2 - 52)

def nearestNat (n : Nat) : Nat := halfEven n (grain n) * grain n

/-- The whole number that the nearest real to an integer stands for. -/
def nearest (i : Int) : Int := i.sign * nearestNat i.natAbs

theorem nearestNat_of_log2_le {n : Nat} (h : n.log2 ≤ 52) : nearestNat n = n := by
  have hgrain : grain n = 1 := by simp [grain, h]
  rw [nearestNat, hgrain, Nat.mul_one]
  simpa using halfEven_of_multiple n Nat.one_pos

theorem two_pow_log2_eq {n : Nat} (h : 52 ≤ n.log2) : 2 ^ n.log2 = 2 ^ 52 * grain n := by
  rw [grain, ← pow_add, Nat.add_sub_cancel' h]

theorem two_pow_log2_le_nearestNat {n : Nat} (hn : n ≠ 0) : 2 ^ n.log2 ≤ nearestNat n := by
  have hlog := Nat.log2_self_le hn
  rcases Nat.le_total n.log2 52 with hnarrow | hwide
  · rwa [nearestNat_of_log2_le hnarrow]
  · rw [two_pow_log2_eq hwide] at hlog ⊢
    refine Nat.mul_le_mul_right _ (le_trans ?_ (div_le_halfEven n (grain n)))
    exact (Nat.le_div_iff_mul_le (Nat.two_pow_pos _)).2 hlog

theorem nearestNat_le_two_pow (n : Nat) : nearestNat n ≤ 2 ^ (n.log2 + 1) := by
  have hlog : n < 2 ^ (n.log2 + 1) := Nat.lt_log2_self
  rcases Nat.le_total n.log2 52 with hnarrow | hwide
  · rw [nearestNat_of_log2_le hnarrow]
    exact hlog.le
  · have hpower : 2 ^ (n.log2 + 1) = 2 ^ 53 * grain n := by
      rw [pow_succ, two_pow_log2_eq hwide]
      ring
    rw [hpower] at hlog ⊢
    have hquotient : n / grain n < 2 ^ 53 := (Nat.div_lt_iff_lt_mul (Nat.two_pow_pos _)).2 hlog
    exact Nat.mul_le_mul_right _ ((halfEven_le n (grain n)).trans hquotient)

/-- Between two numbers with different numbers of digits there is a power of two, which rounding
does not cross. -/
theorem nearestNat_mono {n m : Nat} (h : n ≤ m) : nearestNat n ≤ nearestNat m := by
  rcases Nat.eq_zero_or_pos n with rfl | hn
  · rw [nearestNat_of_log2_le (by decide)]
    exact Nat.zero_le _
  · have hm : m ≠ 0 := by omega
    have hlog : n.log2 ≤ m.log2 := (Nat.le_log2 hm).2 ((Nat.log2_self_le hn.ne').trans h)
    rcases hlog.lt_or_eq with hless | hsame
    · calc nearestNat n ≤ 2 ^ (n.log2 + 1) := nearestNat_le_two_pow n
        _ ≤ 2 ^ m.log2 := Nat.pow_le_pow_right (by decide) hless
        _ ≤ nearestNat m := two_pow_log2_le_nearestNat hm
    · have hgrain : grain n = grain m := by rw [grain, grain, hsame]
      rw [nearestNat, nearestNat, hgrain]
      exact Nat.mul_le_mul_right _ (halfEven_mono h (grain m))

theorem nearestNat_of_le {n : Nat} (h : n ≤ 2 ^ 53) : nearestNat n = n := by
  rcases h.lt_or_eq with hless | rfl
  · rcases Nat.eq_zero_or_pos n with rfl | hn
    · rfl
    · exact nearestNat_of_log2_le (Nat.le_of_lt_succ ((Nat.log2_lt hn.ne').2 hless))
  · decide

@[simp]
theorem nearest_natCast (n : Nat) : nearest n = nearestNat n := by
  cases n with
  | zero => rfl
  | succ n => exact Int.one_mul _

theorem nearest_neg (i : Int) : nearest (-i) = -nearest i := by
  simp [nearest]

theorem nearest_monotone : Monotone nearest := by
  refine monotone_of_odd_of_monotoneOn_nonneg nearest_neg ?_
  intro i hi j hj h
  obtain ⟨n, rfl⟩ := Int.eq_ofNat_of_zero_le hi
  obtain ⟨m, rfl⟩ := Int.eq_ofNat_of_zero_le hj
  rw [nearest_natCast, nearest_natCast]
  exact Int.ofNat_le.2 (nearestNat_mono (Int.ofNat_le.1 h))

/-- Where rounding keeps the integers apart, it keeps their order. -/
theorem nearest_lt_iff {i j : Int} (h : nearest i = nearest j → i = j) :
    nearest i < nearest j ↔ i < j := by
  refine ⟨nearest_monotone.reflect_lt, fun hless => ?_⟩
  exact lt_of_le_of_ne (nearest_monotone hless.le) fun hsame => hless.ne (h hsame)

theorem nearest_of_natAbs_le {i : Int} (h : i.natAbs ≤ 2 ^ 53) : nearest i = i := by
  rw [nearest, nearestNat_of_le h, Int.sign_mul_natAbs]

/-- Rounding a product with a power of two is rounding the number. -/
theorem halfEven_scaled {n places : Nat} (h : 52 ≤ n.log2 + places) :
    halfEven (n * 2 ^ places) (2 ^ (n.log2 + places - 52)) * 2 ^ (n.log2 + places - 52) =
      nearestNat n * 2 ^ places := by
  rcases Nat.le_total 52 n.log2 with hwide | hnarrow
  · have hpower : 2 ^ (n.log2 + places - 52) = grain n * 2 ^ places := by
      rw [grain, ← pow_add]
      congr 1
      omega
    rw [hpower, halfEven_mul _ _ (by positivity), nearestNat, Nat.mul_assoc]
  · have hpower : n * 2 ^ places = n * 2 ^ (52 - n.log2) * 2 ^ (n.log2 + places - 52) := by
      rw [Nat.mul_assoc, ← pow_add]
      congr 2
      omega
    rw [nearestNat_of_log2_le hnarrow, hpower, halfEven_of_multiple _ (by positivity)]

/-! Rounding of significands. -/

section Significand

open Float.Model Float.Model.UnpackedFloat

/-- What is left of a significand that was moved right by some places: its quotient, the last digit
that it lost and whether it lost another one before. -/
def moved (m places : Nat) : ExtendedMantissa :=
  match places with
  | 0 => ⟨m, false, false⟩
  | places + 1 => ⟨m / 2 ^ (places + 1), m / 2 ^ places % 2 != 0, m % 2 ^ places != 0⟩

theorem shiftRight_eq_moved (m places : Nat) :
    ExtendedMantissa.ofMantissaAndAccuracy m .exact >>> places = moved m places := by
  change places.repeat ExtendedMantissa.shiftRightOne ⟨m, false, false⟩ = moved m places
  induction places with
  | zero => rfl
  | succ places ih =>
    rw [Nat.repeat, ih]
    cases places with
    | zero => simp [moved, ExtendedMantissa.shiftRightOne, Nat.mod_one]
    | succ places =>
      have hlost : (m / 2 ^ places % 2 != 0 || m % 2 ^ places != 0) = (m % 2 ^ (places + 1) != 0) := by
        rw [Bool.eq_iff_iff, Nat.mod_pow_succ]
        have hpower : 2 ^ places ≠ 0 := (Nat.two_pow_pos places).ne'
        simp only [Bool.or_eq_true, bne_iff_ne, ne_eq, Nat.add_eq_zero_iff, Nat.mul_eq_zero, hpower,
          false_or]
        tauto
      simp only [moved, ExtendedMantissa.shiftRightOne, ExtendedMantissa.mk.injEq]
      refine ⟨?_, trivial, hlost⟩
      rw [Nat.div_div_eq_div_mul, ← pow_succ]

theorem roundedMantissa_eq (m : Nat) (half more : Bool) :
    (⟨m, half, more⟩ : ExtendedMantissa).roundedMantissa =
      if half = false then m else if more = false then m + m % 2 else m + 1 := by
  cases half <;> cases more <;> rfl

theorem roundedMantissa_moved (m places : Nat) :
    (moved m places).roundedMantissa = halfEven m (2 ^ places) := by
  cases places with
  | zero => simp [moved, halfEven, roundedMantissa_eq, Nat.mod_one]
  | succ places =>
    have hrest : m % 2 ^ places < 2 ^ places := Nat.mod_lt _ (by positivity)
    have hdouble : 2 ^ (places + 1) = 2 * 2 ^ places := pow_succ' 2 places
    rw [moved, roundedMantissa_eq, halfEven, Nat.mod_pow_succ]
    rcases Nat.mod_two_eq_zero_or_one (m / 2 ^ places) with hdigit | hdigit
    · rw [hdigit, if_pos (by rfl), if_pos (by omega)]
    · rw [hdigit, if_neg (by decide)]
      by_cases hzero : m % 2 ^ places = 0
      · rw [if_pos (by simp [hzero]), if_neg (by omega), if_pos (by omega)]
      · rw [if_neg (by simp [hzero]), if_neg (by omega), if_neg (by omega)]

theorem log2_eq {m digits : Nat} (hlow : 2 ^ digits ≤ m) (hhigh : m < 2 ^ (digits + 1)) :
    m.log2 = digits := by
  have hpos : 0 < m := (Nat.two_pow_pos digits).trans_le hlow
  exact (Nat.log2_eq_iff hpos.ne').2 ⟨hlow, hhigh⟩

theorem shiftToTargetExponent_exact {m : Nat} (digits : Nat) (exponent : Int)
    (hlow : 2 ^ (digits + 52) ≤ m) (hhigh : m < 2 ^ (digits + 53))
    (hexponent : -1074 ≤ exponent + digits) :
    shiftToTargetExponent Format.binary64 m exponent .exact =
      (moved m digits, exponent + digits) := by
  have hlog : m.log2 = digits + 52 := log2_eq hlow hhigh
  have htarget : Format.binary64.targetExponent (totalExponent m exponent) = exponent + digits := by
    simp only [Format.targetExponent, totalExponent, Format.mantissaBits, Format.minExponent, hlog]
    omega
  have hplaces : (exponent + digits - exponent).toNat = digits := by omega
  simp only [shiftToTargetExponent, htarget, shiftToExponent, hplaces, shiftRight_eq_moved]

/-- Rounding moves a significand to the right until 53 digits are left, and once more if a carry
has added a digit. -/
theorem roundWithAccuracy_exact (sign : Sign) {m digits : Nat} (exponent : Int)
    (hlow : 2 ^ (digits + 52) ≤ m) (hhigh : m < 2 ^ (digits + 53))
    (hexponent : -1074 ≤ exponent + digits) :
    ∃ significand place h,
      roundWithAccuracy Format.binary64 sign m exponent .exact =
        .finite sign significand (exponent + (place : Nat)) h ∧
      2 ^ 52 ≤ significand ∧ significand < 2 ^ 53 ∧ digits ≤ place ∧ place ≤ digits + 1 ∧
      significand * 2 ^ place = halfEven m (2 ^ digits) * 2 ^ digits := by
  have hquotient : 2 ^ 52 ≤ m / 2 ^ digits ∧ m / 2 ^ digits < 2 ^ 53 := by
    rw [Nat.le_div_iff_mul_le (by positivity), Nat.div_lt_iff_lt_mul (by positivity), ← pow_add,
      ← pow_add, Nat.add_comm 52, Nat.add_comm 53]
    exact ⟨hlow, hhigh⟩
  have hdown := div_le_halfEven m (2 ^ digits)
  have hup := halfEven_le m (2 ^ digits)
  unfold roundWithAccuracy
  simp only [shiftToTargetExponent_exact digits exponent hlow hhigh hexponent, roundedMantissa_moved]
  rcases Nat.lt_or_ge (halfEven m (2 ^ digits)) (2 ^ 53) with hfits | hcarried
  · have hstay := shiftToTargetExponent_exact 0 (exponent + digits) (hquotient.1.trans hdown) hfits
      (by omega)
    simp only [hstay, moved]
    rw [dif_neg (by omega)]
    exact ⟨halfEven m (2 ^ digits), digits, by omega, by simp, by omega, hfits, le_rfl, by omega,
      rfl⟩
  · have hpower : halfEven m (2 ^ digits) = 2 ^ 53 := by omega
    have hmove := shiftToTargetExponent_exact (m := 2 ^ 53) 1 (exponent + digits) (by norm_num)
      (by norm_num) (by omega)
    simp only [hpower, hmove, moved]
    rw [dif_neg (by decide)]
    refine ⟨2 ^ 52, digits + 1, by decide, ?_, le_rfl, by decide, by omega, le_rfl, ?_⟩
    · simp [Int.add_assoc]
    · ring

end Significand

end Archflow.Binary64
