import Mathlib.Algebra.Order.Group.MinMax
import NetworkConsole.Proofs.Binary64.Value

/-!
# Order beyond the finite floats

An infinity is taken for the least size that is too large for a float. Then floats are
ordered as rational numbers are, infinities included, and rounding is monotone however
large the exact number is. So is the conversion of whole numbers to floats.
-/

namespace NetworkConsole
namespace Binary64

open Float.Model
open Float.Model.UnpackedFloat (Sign)

/-- The number that a float stands for, of the least size that is too large if it is an
infinity. -/
def saturated (x : Float) : ℚ :=
  match x.toModel.unpack with
  | .infinity sign => factor sign * overflow
  | unpacked => rational unpacked

theorem overflow_pos : 0 < overflow := by
  unfold overflow
  positivity

theorem finite_or_infinite {x : Float} (number : x.isNaN = false) :
    x.isFinite = true ∨ ∃ sign, x.toModel.unpack = .infinity sign := by
  rw [isFinite_eq]
  change x.toModel.unpack.isNaN = false at number
  revert number
  cases x.toModel.unpack <;> simp [UnpackedFloat.isNaN, UnpackedFloat.isFinite]

theorem isNaN_of_isFinite {x : Float} (finite : x.isFinite = true) : x.isNaN = false := by
  rw [isFinite_eq] at finite
  change x.toModel.unpack.isNaN = false
  revert finite
  cases x.toModel.unpack <;> simp [UnpackedFloat.isNaN, UnpackedFloat.isFinite]

theorem isInf_of_isFinite {x : Float} (finite : x.isFinite = true) : x.isInf = false := by
  rw [isFinite_eq] at finite
  change x.toModel.unpack.isInf = false
  revert finite
  cases x.toModel.unpack <;> simp [UnpackedFloat.isInf, UnpackedFloat.isFinite]

theorem isNaN_of_infinite {x : Float} {sign : Sign} (infinite : x.toModel.unpack = .infinity sign) :
    x.isNaN = false := by
  change x.toModel.unpack.isNaN = false
  rw [infinite]
  rfl

theorem saturated_of_isFinite {x : Float} (finite : x.isFinite = true) :
    saturated x = value x := by
  rw [isFinite_eq] at finite
  unfold saturated value
  revert finite
  cases x.toModel.unpack <;> simp [UnpackedFloat.isFinite]

theorem saturated_of_infinite
    {x : Float}
    {sign : Sign}
    (infinite : x.toModel.unpack = .infinity sign) :
    saturated x = factor sign * overflow := by
  rw [saturated, infinite]

/-- Comparisons with what is not a number fail. -/
theorem isNaN_of_lt {x y : Float} (below : x < y) : x.isNaN = false ∧ y.isNaN = false := by
  have order : UnpackedFloat.lt x.toModel.unpack y.toModel.unpack = true :=
    decide_eq_true_iff.mp below
  change x.toModel.unpack.isNaN = false ∧ y.toModel.unpack.isNaN = false
  revert order
  cases x.toModel.unpack <;> cases y.toModel.unpack <;>
    simp [UnpackedFloat.lt, UnpackedFloat.compare, UnpackedFloat.isNaN]

/-- An infinity is beyond every finite float on its side. -/
theorem infinity_lt_iff {x y : Float} {sign : Sign}
    (left : x.toModel.unpack = .infinity sign)
    (right : y.isFinite = true) :
    x < y ↔ sign = .negative := by
  apply decide_eq_true_iff.trans
  change UnpackedFloat.lt x.toModel.unpack y.toModel.unpack = true ↔ _
  rw [isFinite_eq] at right
  rw [left]
  revert right
  cases sign <;> cases y.toModel.unpack <;>
    simp [UnpackedFloat.lt, UnpackedFloat.compare, UnpackedFloat.isFinite]

theorem lt_infinity_iff {x y : Float} {sign : Sign}
    (left : x.isFinite = true)
    (right : y.toModel.unpack = .infinity sign) :
    x < y ↔ sign = .positive := by
  apply decide_eq_true_iff.trans
  change UnpackedFloat.lt x.toModel.unpack y.toModel.unpack = true ↔ _
  rw [isFinite_eq] at left
  rw [right]
  revert left
  cases sign <;> cases x.toModel.unpack <;>
    simp [UnpackedFloat.lt, UnpackedFloat.compare, UnpackedFloat.isFinite]

theorem infinity_lt_infinity_iff {x y : Float} {leftSign rightSign : Sign}
    (left : x.toModel.unpack = .infinity leftSign)
    (right : y.toModel.unpack = .infinity rightSign) :
    x < y ↔ leftSign = .negative ∧ rightSign = .positive := by
  apply decide_eq_true_iff.trans
  change UnpackedFloat.lt x.toModel.unpack y.toModel.unpack = true ↔ _
  have order : compare Sign.negative Sign.positive = .lt := rfl
  rw [left, right]
  cases leftSign <;> cases rightSign <;> simp [UnpackedFloat.lt, UnpackedFloat.compare, order]

/-- Floats are ordered as the numbers that they stand for, infinities included. -/
theorem lt_iff_saturated {x y : Float} (left : x.isNaN = false) (right : y.isNaN = false) :
    x < y ↔ saturated x < saturated y := by
  have positive := overflow_pos
  rcases finite_or_infinite left with leftFinite | ⟨leftSign, leftInfinite⟩
  · obtain ⟨above, below⟩ := abs_lt.mp (abs_value_lt_overflow leftFinite)
    rcases finite_or_infinite right with rightFinite | ⟨rightSign, rightInfinite⟩
    · rw [saturated_of_isFinite leftFinite, saturated_of_isFinite rightFinite]
      exact lt_iff leftFinite rightFinite
    · rw [saturated_of_isFinite leftFinite, saturated_of_infinite rightInfinite,
        lt_infinity_iff leftFinite rightInfinite]
      cases rightSign <;> simp [factor] <;> linarith
  · rcases finite_or_infinite right with rightFinite | ⟨rightSign, rightInfinite⟩
    · obtain ⟨above, below⟩ := abs_lt.mp (abs_value_lt_overflow rightFinite)
      rw [saturated_of_infinite leftInfinite, saturated_of_isFinite rightFinite,
        infinity_lt_iff leftInfinite rightFinite]
      cases leftSign <;> simp [factor] <;> linarith
    · rw [saturated_of_infinite leftInfinite, saturated_of_infinite rightInfinite,
        infinity_lt_infinity_iff leftInfinite rightInfinite]
      cases leftSign <;> cases rightSign <;> simp [factor] <;> linarith

/-! ## Rounded results -/

/-- A number brought between the sizes that are too large. -/
def saturate (q : ℚ) : ℚ := max (-overflow) (min overflow q)

theorem saturate_mono {p q : ℚ} (ordered : p ≤ q) : saturate p ≤ saturate q :=
  max_le_max le_rfl (min_le_min le_rfl ordered)

theorem saturate_neg (q : ℚ) : saturate (-q) = -saturate q := by
  have positive := overflow_pos
  unfold saturate
  rw [← min_neg_neg, ← max_neg_neg, neg_neg, max_min_distrib_left, max_eq_right (by linarith)]

/-- A rounded result is a number, an infinity where the rounded number is too large. -/
theorem RoundsTo.saturated_eq {q : ℚ} {x : Float} (rounds : RoundsTo q x) :
    x.isNaN = false ∧ saturated x = saturate (nearest q) := by
  by_cases small : |nearest q| < overflow
  · have finite := rounds.isFinite_iff.mpr small
    obtain ⟨above, below⟩ := abs_lt.mp small
    refine ⟨isNaN_of_isFinite finite, ?_⟩
    rw [saturated_of_isFinite finite, rounds.value_eq finite, saturate, min_eq_right below.le,
      max_eq_right above.le]
  · obtain ⟨unpacked, canonical, exact, rfl⟩ := rounds
    rw [not_lt, ← exact] at small
    obtain ⟨sign, infinite, side⟩ := unpack_pack_of_large canonical small
    have unpacked_eq : (Float.ofModel (Float.Model.pack unpacked)).toModel.unpack =
      .infinity sign := infinite
    have positive := overflow_pos
    refine ⟨isNaN_of_infinite unpacked_eq, ?_⟩
    rw [saturated_of_infinite unpacked_eq, ← exact, side, saturate]
    cases sign with
    | positive =>
        rw [factor, one_mul, one_mul, min_eq_left small, max_eq_right (by linarith)]
    | negative =>
        rw [factor, neg_one_mul, neg_one_mul, min_eq_right (by linarith), max_eq_left (by linarith)]

theorem saturated_neg {x : Float} (number : x.isNaN = false) :
    (-x).isNaN = false ∧ saturated (-x) = -saturated x := by
  rcases finite_or_infinite number with finite | ⟨sign, infinite⟩
  · obtain ⟨negFinite, exact⟩ := neg_value finite
    exact ⟨isNaN_of_isFinite negFinite, by
      rw [saturated_of_isFinite negFinite, exact, saturated_of_isFinite finite]⟩
  · have negated : (-x).toModel.unpack = .infinity (-sign) := by
      have unpacked : (-x).toModel.unpack = x.toModel.unpack.neg := by
        apply unpack_ofModel_pack_of_infinite
        rw [infinite]
        rfl
      rw [unpacked, infinite]
      rfl
    refine ⟨isNaN_of_infinite negated, ?_⟩
    rw [saturated_of_infinite negated, saturated_of_infinite infinite, factor_neg, neg_mul]

/-! ## Whole numbers -/

/-- A whole number times a power of ten is converted by one product. -/
theorem roundsTo_ofScientific_of_nonneg
    {digits : ℕ}
    {exponent : ℤ}
    (positive : 0 < digits)
    (nonneg : 0 ≤ exponent)
    (notLarge : exponent ≤ 2048) :
    RoundsTo (digits * 10 ^ exponent)
      (Float.ofModel (Float.Model.ofScientific digits exponent)) := by
  have powerPositive : 0 < 10 ^ exponent.toNat := by positivity
  -- The significand is shifted by the whole format, so that no digit is lost.
  have product : UnpackedFloat.ofScientific Format.binary64 digits exponent =
      UnpackedFloat.roundWithAccuracy Format.binary64 .positive
        ((digits <<< 53) * 10 ^ exponent.toNat) (-53) .exact := by
    have width : (2 : ℤ) ^ Format.binary64.exponentBits = 2048 := rfl
    unfold UnpackedFloat.ofScientific
    rw [dif_neg positive.ne', if_neg (by omega), if_neg (by omega), if_pos nonneg]
    rfl
  have covered : (-53 : ℤ) ≤ Format.binary64.targetExponent
      (totalExponent ((digits <<< 53) * 10 ^ exponent.toNat) (-53)) := by
    have wide : 2 ^ 53 ≤ (digits <<< 53) * 10 ^ exponent.toNat := by
      rw [Nat.shiftLeft_eq, mul_right_comm]
      exact Nat.le_mul_of_pos_left _ (Nat.mul_pos positive powerPositive)
    have size := (Nat.le_log2 (by omega)).mpr wide
    rw [targetExponent_eq, totalExponent]
    omega
  have exact : (((digits <<< 53) * 10 ^ exponent.toNat : ℕ) : ℚ) * 2 ^ (-53 : ℤ) =
      digits * 10 ^ exponent := by
    have power : (10 : ℚ) ^ exponent = 10 ^ exponent.toNat := by
      rw [← zpow_natCast, Int.toNat_of_nonneg nonneg]
    have shift : (2 : ℚ) ^ 53 * 2 ^ (-53 : ℤ) = 1 := by norm_num
    rw [Nat.shiftLeft_eq, power]
    simp only [Nat.cast_mul, Nat.cast_pow, Nat.cast_ofNat]
    rw [mul_right_comm, mul_assoc (digits : ℚ), shift, mul_one]
  obtain ⟨canonical, rounded⟩ := roundWithAccuracy_rational .positive (denotes_exact _) covered
  rw [← product] at canonical rounded
  rw [exact, factor, one_mul] at rounded
  exact ⟨_, canonical, rounded, rfl⟩

/-- A natural number of any size is converted by one rounding. -/
theorem roundsTo_ofNat (n : ℕ) : RoundsTo n (Float.ofNat n) := by
  by_cases bounded : n < 2 ^ 53
  · exact ofNat_roundsTo bounded
  · have literal : Float.ofNat n = Float.ofModel (Float.Model.ofScientific n 0) := by
      change Float.ofScientific n false 0 = _
      rw [Float.ofScientific, dif_neg (by omega)]
      rfl
    have rounds := roundsTo_ofScientific_of_nonneg (show 0 < n by omega) le_rfl (by norm_num)
    rw [zpow_zero, mul_one] at rounds
    rwa [literal]

theorem saturated_ofInt (n : ℤ) :
    (Float.ofInt n).isNaN = false ∧ saturated (Float.ofInt n) = saturate (nearest n) := by
  cases n with
  | ofNat n => exact (roundsTo_ofNat n).saturated_eq
  | negSucc n =>
      obtain ⟨number, exact⟩ := (roundsTo_ofNat (n + 1)).saturated_eq
      obtain ⟨negNumber, negated⟩ := saturated_neg number
      refine ⟨negNumber, negated.trans ?_⟩
      rw [exact, ← saturate_neg, ← nearest_neg, Int.cast_negSucc]

/-- A small integer is converted exactly. -/
theorem value_ofInt {n : ℤ} (bounded : |n| < 2 ^ 53) :
    (Float.ofInt n).isFinite = true ∧ value (Float.ofInt n) = n := by
  cases n with
  | ofNat n =>
      have small : n < 2 ^ 53 := by
        change |(n : ℤ)| < 2 ^ 53 at bounded
        rw [Nat.abs_cast] at bounded
        exact_mod_cast bounded
      exact ⟨isFinite_ofNat small, value_ofNat small⟩
  | negSucc n =>
      have small : n + 1 < 2 ^ 53 := by
        have magnitude : |Int.negSucc n| = (n + 1 : ℕ) := by
          rw [Int.negSucc_eq, abs_neg]
          exact Nat.abs_cast (n + 1)
        rw [magnitude] at bounded
        exact_mod_cast bounded
      obtain ⟨finite, exact⟩ := neg_value (isFinite_ofNat small)
      exact ⟨finite, by rw [Int.cast_negSucc, ← value_ofNat small]; exact exact⟩

/-- The conversion of integers to floats is monotone. -/
theorem ofInt_lt_of_le
    {m n : ℤ}
    (ordered : m ≤ n)
    {limit : Float}
    (below : Float.ofInt n < limit) :
    Float.ofInt m < limit := by
  obtain ⟨lower, lowerExact⟩ := saturated_ofInt m
  obtain ⟨upper, upperExact⟩ := saturated_ofInt n
  have number := (isNaN_of_lt below).2
  rw [lt_iff_saturated upper number, upperExact] at below
  rw [lt_iff_saturated lower number, lowerExact]
  exact (saturate_mono (nearest_mono (by exact_mod_cast ordered))).trans_lt below

end Binary64
end NetworkConsole
