import Archflow.Proofs.Rounding
import Archflow.Value

/-!
Reals that stand for whole numbers. The nearest real to a 64-bit integer is one of them: it stands
for the integer rounded to 53 binary digits (`represents_realOfInt`). Two such reals are ordered as
the whole numbers are that they stand for (`Represents.lt_iff`, `Represents.beq_eq`).
-/
namespace Archflow.Binary64

open Float.Model Float.Model.UnpackedFloat

/-- The unpacked real stands for a whole number of moderate size. -/
inductive Represents : UnpackedFloat → Int → Prop where
  | zero (sign : Sign) : Represents (.zero sign) 0
  | finite (sign : Sign) {significand place value : Nat} (h : 0 < significand)
      (low : 2 ^ 52 ≤ significand) (high : significand < 2 ^ 53) (moderate : place ≤ 64)
      (whole : significand * 2 ^ place = value * 2 ^ 52) :
      Represents (.finite sign significand (-52 + (place : Nat)) h) (sign.apply value)

theorem Represents.neg {x : UnpackedFloat} {i : Int} (h : Represents x i) :
    Represents x.neg (-i) := by
  cases h with
  | zero sign => exact .zero (-sign)
  | @finite sign significand place value hpos low high moderate whole =>
    have hsign : -(sign.apply value) = (-sign).apply value := by
      cases sign with
      | negative => exact neg_neg _
      | positive => rfl
    rw [hsign]
    exact .finite (-sign) hpos low high moderate whole

/-- A significand is the implicit digit and the digits that are packed. -/
theorem toNat_significand {significand : Nat} (low : 2 ^ 52 ≤ significand)
    (high : significand < 2 ^ 53) :
    (1#1 ++ BitVec.ofNat 52 significand).toNat = significand := by
  rw [BitVec.toNat_append, ← Nat.shiftLeft_add_eq_or_of_lt (BitVec.isLt _), Nat.shiftLeft_eq]
  simp only [BitVec.toNat_ofNat]
  omega

theorem toNat_biased {place : Nat} (h : place ≤ 64) :
    (BitVec.ofNat 11 (place + 1023)).toNat = place + 1023 := by
  rw [BitVec.toNat_ofNat]
  omega

theorem pack_finite (sign : Sign) {significand place : Nat} (hpos : 0 < significand)
    (low : 2 ^ 52 ≤ significand) (high : significand < 2 ^ 53) (moderate : place ≤ 64) :
    UnpackedFloat.pack Format.binary64 (.finite sign significand (-52 + (place : Nat)) hpos) =
      packComponents Format.binary64 sign (BitVec.ofNat 11 (place + 1023))
        (BitVec.ofNat 52 significand) := by
  have hbiased : (-52 + (place : Int) + (Format.binary64.exponentBias : Nat) + (52 : Nat)).toNat =
      place + 1023 := by
    simp only [Format.exponentBias]
    omega
  simp only [UnpackedFloat.pack, log2_eq low high, hbiased]
  rw [if_neg (by omega), if_pos (by decide)]

theorem Represents.packed {x : UnpackedFloat} {i : Int} (h : Represents x i) :
    (Float.Model.pack x).unpack = x := by
  change UnpackedFloat.unpack Format.binary64 (UnpackedFloat.pack Format.binary64 x) = x
  cases h with
  | zero sign => simp [UnpackedFloat.pack]
  | @finite sign significand place value hpos low high moderate whole =>
    have hfield := toNat_biased moderate
    have hfull : BitVec.ofNat 11 (place + 1023) ≠ -1#11 := by
      rw [ne_eq, ← BitVec.toNat_inj, hfield]
      have hones : (-1#11).toNat = 2047 := rfl
      omega
    have hempty : BitVec.ofNat 11 (place + 1023) ≠ 0#11 := by
      rw [ne_eq, ← BitVec.toNat_inj, hfield]
      simp
    have hexponent : ((place + 1023 : Nat) : Int) -
        ((Format.binary64.exponentBias : Nat) + (52 : Nat)) = -52 + place := by
      simp only [Format.exponentBias]
      omega
    rw [pack_finite sign hpos low high moderate, UnpackedFloat.unpack]
    simp only [unpackMantissa_packComponents, unpackExponent_packComponents,
      unpackSign_packComponents, Sign.ofBitVec_toBitVec, toNat_significand low high, hfield]
    rw [if_neg hfull, if_neg hempty]
    simp only [hexponent]

/-! Comparison of whole numbers. -/

theorem compare_natCast (v w : Nat) : compare (v : Int) (w : Int) = compare v w := by
  have hmono : StrictMono ((↑) : Nat → Int) := Nat.strictMono_cast
  rw [← cmp_eq_compare, ← cmp_eq_compare, hmono.cmp_map_eq]

theorem compare_neg (i j : Int) : compare (-i) (-j) = (compare i j).swap := by
  have hanti : StrictAnti (fun i : Int => -i) := strictMono_id.neg
  rw [← cmp_eq_compare, ← cmp_eq_compare, cmp_swap, hanti.cmp_map_eq]

/-- Of two numbers with 53 digits each, the one with the greater place is greater. -/
theorem lt_of_place_lt {m n p q v w : Nat} (hm : m < 2 ^ 53) (hn : 2 ^ 52 ≤ n)
    (hv : m * 2 ^ p = v * 2 ^ 52) (hw : n * 2 ^ q = w * 2 ^ 52) (hpq : p < q) : v < w := by
  have hproducts : v * 2 ^ 52 < w * 2 ^ 52 := by
    calc v * 2 ^ 52 = m * 2 ^ p := hv.symm
      _ < 2 ^ 53 * 2 ^ p := Nat.mul_lt_mul_of_pos_right hm (by positivity)
      _ = 2 ^ 52 * 2 ^ (p + 1) := by ring
      _ ≤ n * 2 ^ q := Nat.mul_le_mul hn (Nat.pow_le_pow_right (by norm_num) hpq)
      _ = w * 2 ^ 52 := hw
  omega

theorem compare_magnitudes {m n p q v w : Nat} (hm : 2 ^ 52 ≤ m ∧ m < 2 ^ 53)
    (hn : 2 ^ 52 ≤ n ∧ n < 2 ^ 53) (hv : m * 2 ^ p = v * 2 ^ 52) (hw : n * 2 ^ q = w * 2 ^ 52) :
    (compare (-52 + (p : Int)) (-52 + (q : Int))).then (compare m n) = compare v w := by
  rcases lt_trichotomy p q with hpq | rfl | hpq
  · have hplaces : (-52 + (p : Int)) < -52 + (q : Int) := by omega
    rw [compare_lt_iff_lt.2 hplaces, compare_lt_iff_lt.2 (lt_of_place_lt hm.2 hn.1 hv hw hpq)]
    rfl
  · have hplace : compare (-52 + (p : Int)) (-52 + (p : Int)) = .eq := compare_eq_iff_eq.2 rfl
    have hscale : 0 < 2 ^ p := by positivity
    rw [hplace, Ordering.eq_then, ← cmp_eq_compare, ← cmp_mul_pos_right hscale, hv, hw,
      cmp_mul_pos_right (by positivity), cmp_eq_compare]
  · have hplaces : (-52 + (q : Int)) < -52 + (p : Int) := by omega
    rw [compare_gt_iff_gt.2 hplaces, compare_gt_iff_gt.2 (lt_of_place_lt hn.2 hm.1 hw hv hpq)]
    rfl

theorem pos_of_whole {m p v : Nat} (hm : 0 < m) (hv : m * 2 ^ p = v * 2 ^ 52) : 0 < v := by
  have hproduct : 0 < m * 2 ^ p := by positivity
  rw [hv] at hproduct
  exact Nat.pos_of_mul_pos_right hproduct

/-- Such numbers are compared as the whole numbers that they stand for. -/
theorem Represents.compare {x y : UnpackedFloat} {i j : Int} (hx : Represents x i)
    (hy : Represents y j) : x.compare y = some (Ord.compare i j) := by
  cases hx with
  | zero s =>
    cases hy with
    | zero t => rfl
    | @finite t n q w hn _ _ _ hw =>
      have hw' := pos_of_whole hn hw
      cases t with
      | negative => exact congrArg some (compare_gt_iff_gt.2 (show -(w : Int) < 0 by omega)).symm
      | positive => exact congrArg some (compare_lt_iff_lt.2 (show (0 : Int) < w by omega)).symm
  | @finite s m p v hm low high _ hv =>
    have hv' := pos_of_whole hm hv
    cases hy with
    | zero t =>
      cases s with
      | negative => exact congrArg some (compare_lt_iff_lt.2 (show -(v : Int) < 0 by omega)).symm
      | positive => exact congrArg some (compare_gt_iff_gt.2 (show (0 : Int) < v by omega)).symm
    | @finite t n q w hn low' high' _ hw =>
      have hw' := pos_of_whole hn hw
      have hmagnitudes := compare_magnitudes ⟨low, high⟩ ⟨low', high'⟩ hv hw
      match s, t with
      | .negative, .negative =>
        simp only [UnpackedFloat.compare, hmagnitudes, Sign.apply, compare_neg, compare_natCast]
      | .negative, .positive =>
        exact congrArg some (compare_lt_iff_lt.2 (show -(v : Int) < w by omega)).symm
      | .positive, .negative =>
        exact congrArg some (compare_gt_iff_gt.2 (show -(w : Int) < v by omega)).symm
      | .positive, .positive =>
        simp only [UnpackedFloat.compare, hmagnitudes, Sign.apply, compare_natCast]

/-! Conversion of integers. -/

/-- The rounded product of a number with a power of two, which the exponent takes back. -/
theorem represents_round (sign : Sign) {n : Nat} (places : Nat) (hn : 0 < n) (hbound : n < 2 ^ 64)
    (hplaces : 52 ≤ n.log2 + places) :
    Represents (roundWithAccuracy Format.binary64 sign (n * 2 ^ places) (-(places : Int)) .exact)
      (sign.apply (nearestNat n)) := by
  have hlow : 2 ^ (n.log2 + places - 52 + 52) ≤ n * 2 ^ places := by
    rw [Nat.sub_add_cancel hplaces, pow_add]
    exact Nat.mul_le_mul_right _ (Nat.log2_self_le hn.ne')
  have hhigh : n * 2 ^ places < 2 ^ (n.log2 + places - 52 + 53) := by
    rw [show n.log2 + places - 52 + 53 = n.log2 + 1 + places by omega, pow_add]
    exact Nat.mul_lt_mul_of_pos_right Nat.lt_log2_self (by positivity)
  have hlog : n.log2 < 64 := (Nat.log2_lt hn.ne').2 hbound
  obtain ⟨significand, place, hpos, hround, low, high, hless, hmore, hwhole⟩ :=
    roundWithAccuracy_exact sign (-(places : Int)) hlow hhigh (by omega)
  rw [halfEven_scaled hplaces] at hwhole
  have hexponent : -(places : Int) + place = -52 + (place + 52 - places : Nat) := by omega
  rw [hround]
  simp only [hexponent]
  refine .finite sign hpos low high (by omega) ?_
  refine Nat.eq_of_mul_eq_mul_right (Nat.two_pow_pos places) ?_
  calc significand * 2 ^ (place + 52 - places) * 2 ^ places
      = significand * 2 ^ place * 2 ^ 52 := by
        rw [Nat.mul_assoc, ← pow_add, Nat.sub_add_cancel (by omega), pow_add, Nat.mul_assoc]
    _ = nearestNat n * 2 ^ 52 * 2 ^ places := by
        rw [hwhole]
        ring

theorem Represents.mul_one {x : UnpackedFloat} {i : Int} (h : Represents x i)
    (hone : 0 < 2 ^ 52) :
    UnpackedFloat.mul Format.binary64 x (.finite .positive (2 ^ 52) (-52) hone) = x := by
  cases h with
  | zero sign => cases sign <;> rfl
  | @finite sign significand place value hpos low high moderate whole =>
    have hsign : sign * .positive = sign := by cases sign <;> rfl
    have hlow : 2 ^ (52 + 52) ≤ significand * 2 ^ 52 := by omega
    have hhigh : significand * 2 ^ 52 < 2 ^ (52 + 53) := by omega
    obtain ⟨significand', place', hpos', hround, low', high', hless, hmore, hwhole⟩ :=
      roundWithAccuracy_exact sign (-52 + (place : Int) + -52) hlow hhigh (by omega)
    rw [halfEven_of_multiple _ (by positivity)] at hwhole
    have hplace : place' = 52 := by
      rcases Nat.lt_or_ge place' 53 with hsmall | hlarge
      · omega
      · obtain rfl : place' = 53 := by omega
        omega
    subst hplace
    have hsignificand : significand' = significand := by omega
    subst hsignificand
    rw [UnpackedFloat.mul, hsign, hround]
    simp

theorem represents_ofUInt64 {n : Nat} (h : n < 2 ^ 53) :
    Represents (UnpackedFloat.ofUInt64 Format.binary64 n.toUInt64) (nearestNat n) := by
  have hsize : n < UInt64.size := by
    rw [UInt64.size]
    omega
  have htoNat : n.toUInt64.toNat = n := UInt64.toNat_ofNat_of_lt hsize
  rw [UnpackedFloat.ofUInt64, htoNat, UnpackedFloat.ofNat, UnpackedFloat.ofInt,
    UnpackedFloat.normalize]
  rcases Nat.eq_zero_or_pos n with rfl | hn
  · exact .zero .positive
  · have hlog : n.log2 < 53 := (Nat.log2_lt hn.ne').2 h
    have htarget : Format.binary64.targetExponent (totalExponent n 0) =
        -((52 - n.log2 : Nat) : Int) := by
      simp only [Format.targetExponent, totalExponent, Format.mantissaBits, Format.minExponent]
      omega
    have hcompare : Ord.compare (n : Int) 0 = .gt := compare_gt_iff_gt.2 (by omega)
    simp only [hcompare, Int.toNat_natCast]
    rw [UnpackedFloat.round, htarget]
    simp only [decreaseExponent]
    have hplaces : (0 - -((52 - n.log2 : Nat) : Int)).toNat = 52 - n.log2 := by omega
    rw [hplaces, Nat.shiftLeft_eq, Int.zero_sub]
    exact represents_round .positive _ hn (by omega) (by omega)

theorem toModel_mul (a b : Float) : (a * b).toModel =
    Float.Model.pack (UnpackedFloat.mul Format.binary64 a.toModel.unpack b.toModel.unpack) := rfl

theorem toModel_neg (a : Float) : (Float.neg a).toModel = Float.Model.pack a.toModel.unpack.neg := rfl

theorem toModel_toFloat (n : UInt64) :
    n.toFloat.toModel = Float.Model.pack (UnpackedFloat.ofUInt64 Format.binary64 n) := rfl

theorem represents_one : ∃ h, Float.exactlyRepresentablePowersOfTen[0].toModel.unpack =
    .finite .positive (2 ^ 52) (-52) h := ⟨by decide, rfl⟩

theorem ofNat_of_lt {n : Nat} (h : n < 2 ^ 53) :
    Float.ofNat n = n.toUInt64.toFloat * Float.exactlyRepresentablePowersOfTen[0] := by
  change Float.ofScientific n false 0 = _
  rw [Float.ofScientific, dif_pos ⟨h, by decide⟩]
  simp only [Bool.false_eq_true, if_false]

theorem ofNat_of_le {n : Nat} (h : 2 ^ 53 ≤ n) :
    Float.ofNat n = ⟨Float.Model.pack
      (roundWithAccuracy Format.binary64 .positive (n * 2 ^ 53) (-(53 : Nat)) .exact)⟩ := by
  have hrounded : UnpackedFloat.ofScientific Format.binary64 n 0 =
      roundWithAccuracy Format.binary64 .positive (n * 2 ^ 53) (-(53 : Nat)) .exact := by
    have hpower : (0 : Int) < 2 ^ Format.binary64.exponentBits := by positivity
    unfold UnpackedFloat.ofScientific
    rw [dif_neg (by omega), if_neg (by omega), if_neg (by omega), if_pos le_rfl]
    simp only [UnpackedFloat.mul, Nat.shiftLeft_eq, Format.mantissaBits, Int.toNat_zero, pow_zero,
      Nat.mul_one, Int.add_zero]
    rfl
  change Float.ofScientific n false 0 = _
  rw [Float.ofScientific, dif_neg (by omega), ← hrounded]
  simp only [Bool.false_eq_true, if_false]
  rfl

theorem represents_ofNat {n : Nat} (h : n < 2 ^ 64) :
    Represents (Float.ofNat n).toModel.unpack (nearestNat n) := by
  rcases Nat.lt_or_ge n (2 ^ 53) with hsmall | hlarge
  · obtain ⟨hone, heq⟩ := represents_one
    have hn := represents_ofUInt64 hsmall
    rw [ofNat_of_lt hsmall, toModel_mul, toModel_toFloat, hn.packed, heq, hn.mul_one, hn.packed]
    exact hn
  · have hrounded := represents_round .positive 53 (by omega : 0 < n) h (by omega)
    rw [ofNat_of_le hlarge]
    change Represents (Float.Model.pack _).unpack _
    rw [hrounded.packed]
    exact hrounded

theorem represents_ofInt {i : Int} (h : i.natAbs < 2 ^ 64) :
    Represents (Float.ofInt i).toModel.unpack (nearest i) := by
  cases i with
  | ofNat n =>
    rw [Int.ofNat_eq_natCast, nearest_natCast]
    exact represents_ofNat h
  | negSucc n =>
    have hneg := (represents_ofNat (n := n + 1) h).neg
    rw [Int.negSucc_eq, nearest_neg, ← Int.natCast_succ, nearest_natCast]
    change Represents (Float.neg (Float.ofNat (n + 1))).toModel.unpack _
    rw [toModel_neg, hneg.packed]
    exact hneg

theorem represents_realOfInt (a : Int64) :
    Represents (Value.realOfInt a).toModel.unpack (nearest a.toInt) := by
  refine represents_ofInt ?_
  have hlow := a.le_toInt
  have hhigh := a.toInt_lt
  omega

/-! Comparison of reals. -/

variable {x y : Float} {i j : Int}

theorem Represents.lt_iff (hx : Represents x.toModel.unpack i) (hy : Represents y.toModel.unpack j) :
    x < y ↔ i < j := by
  change decide ((x.toModel.unpack.compare y.toModel.unpack == some .lt) = true) = true ↔ i < j
  rw [hx.compare hy]
  simpa using compare_lt_iff_lt

theorem Represents.beq_eq (hx : Represents x.toModel.unpack i) (hy : Represents y.toModel.unpack j) :
    (x == y) = decide (i = j) := by
  change (x.toModel.unpack.compare y.toModel.unpack == some .eq) = decide (i = j)
  rw [hx.compare hy, Bool.eq_iff_iff]
  simp

end Archflow.Binary64
