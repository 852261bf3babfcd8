import NetworkConsole.Proofs.Binary64.Decimal

/-!
# Arithmetic beside infinities

A sum or a product with an infinity is an infinity again, which is also what the least size
that is too large would give. So numbers that are not negative have one formula for their
sums and products, however large they are. A difference that takes an infinity away is never
above zero.
-/

namespace NetworkConsole
namespace Binary64

open Float.Model
open Float.Model.UnpackedFloat (Sign)

theorem saturate_of_large {q : ℚ} (large : overflow ≤ q) : saturate q = overflow := by
  have positive := overflow_pos
  rw [saturate, min_eq_left large, max_eq_right (by linarith)]

theorem saturate_of_abs_lt {q : ℚ} (small : |q| < overflow) : saturate q = q := by
  obtain ⟨above, below⟩ := abs_lt.mp small
  rw [saturate, min_eq_right below.le, max_eq_right above.le]

theorem saturate_nonneg {q : ℚ} (nonneg : 0 ≤ q) : 0 ≤ saturate q :=
  le_max_of_le_right (le_min overflow_pos.le nonneg)

theorem representable_overflow : Representable overflow :=
  representable_two_zpow 1024 (by norm_num)

/-- Nearest floats are ordered as the exact numbers. -/
theorem IsNearest.mono
    {p q : ℚ}
    {x y : Float}
    (lower : IsNearest p x)
    (upper : IsNearest q y)
    (ordered : p ≤ q) :
    saturated x ≤ saturated y := by
  rw [lower.2, upper.2]
  exact saturate_mono (nearest_mono ordered)

theorem IsNearest.nonneg {q : ℚ} {x : Float} (isNearest : IsNearest q x) (nonneg : 0 ≤ q) :
    0 ≤ saturated x := by
  rw [isNearest.2]
  exact saturate_nonneg (nearest_nonneg nonneg)

/-- A number that is not negative is finite, or it is the positive infinity. -/
theorem finite_or_positive {x : Float} (number : x.isNaN = false) (nonneg : 0 ≤ saturated x) :
    x.isFinite = true ∨ x.toModel.unpack = .infinity .positive := by
  obtain finite | ⟨sign, infinite⟩ := finite_or_infinite number
  · exact .inl finite
  · cases sign with
    | positive => exact .inr infinite
    | negative =>
        have positive := overflow_pos
        rw [saturated_of_infinite infinite, factor, neg_one_mul] at nonneg
        linarith

theorem saturated_of_positive {x : Float} (infinite : x.toModel.unpack = .infinity .positive) :
    saturated x = overflow := by
  rw [saturated_of_infinite infinite, factor, one_mul]

theorem saturated_le_overflow {x : Float} (number : x.isNaN = false) : saturated x ≤ overflow := by
  obtain finite | ⟨sign, infinite⟩ := finite_or_infinite number
  · rw [saturated_of_isFinite finite]
    exact (abs_lt.mp (abs_value_lt_overflow finite)).2.le
  · have positive := overflow_pos
    rw [saturated_of_infinite infinite]
    cases sign with
    | positive => rw [factor, one_mul]
    | negative =>
        rw [factor, neg_one_mul]
        linarith

/-- What stands for a size that is too large is an infinity. -/
theorem isFinite_iff_saturated_lt
    {x : Float}
    (number : x.isNaN = false)
    (nonneg : 0 ≤ saturated x) :
    x.isFinite = true ↔ saturated x < overflow := by
  constructor
  · intro finite
    rw [saturated_of_isFinite finite]
    exact (abs_lt.mp (abs_value_lt_overflow finite)).2
  · intro small
    obtain finite | infinite := finite_or_positive number nonneg
    · exact finite
    · exact absurd (saturated_of_positive infinite) small.ne

theorem representable_saturated {x : Float} (number : x.isNaN = false) (nonneg : 0 ≤ saturated x) :
    Representable (saturated x) := by
  obtain finite | infinite := finite_or_positive number nonneg
  · rw [saturated_of_isFinite finite]
    exact representable_value finite
  · rw [saturated_of_positive infinite]
    exact representable_overflow

theorem not_infinity_le {x y : Float}
    (left : x.toModel.unpack = .infinity .positive)
    (right : y.isFinite = true) :
    ¬ x ≤ y := by
  intro ordered
  have order : UnpackedFloat.le x.toModel.unpack y.toModel.unpack = true :=
    decide_eq_true_iff.mp ordered
  rw [isFinite_eq] at right
  rw [left] at order
  revert right order
  cases y.toModel.unpack <;>
    simp [UnpackedFloat.le, UnpackedFloat.compare, UnpackedFloat.isFinite]

/-! ## Operations -/

theorem unpack_ofModel_infinity
    {unpacked : UnpackedFloat}
    {sign : Sign}
    (infinite : unpacked = .infinity sign) :
    (Float.ofModel (Float.Model.pack unpacked)).toModel.unpack = .infinity sign := by
  rw [unpack_ofModel_pack_of_infinite (by rw [infinite]; rfl), infinite]

section

variable {x y : Float} {sign : Sign}

theorem unpack_infinity_add (left : x.toModel.unpack = .infinity sign) (right : y.isFinite = true) :
    (x + y).toModel.unpack = .infinity sign := by
  apply unpack_ofModel_infinity
  rw [isFinite_eq] at right
  rw [left]
  revert right
  cases y.toModel.unpack <;> simp [UnpackedFloat.add, UnpackedFloat.isFinite]

theorem unpack_infinity_sub (left : x.toModel.unpack = .infinity sign) (right : y.isFinite = true) :
    (x - y).toModel.unpack = .infinity sign := by
  apply unpack_ofModel_infinity
  rw [isFinite_eq] at right
  rw [left]
  revert right
  cases y.toModel.unpack <;> simp [UnpackedFloat.sub, UnpackedFloat.isFinite]

/-- An infinity times a positive number keeps its sign. -/
theorem unpack_infinity_mul
    (left : x.toModel.unpack = .infinity sign)
    (right : y.isFinite = true)
    (positive : 0 < value y) :
    (x * y).toModel.unpack = .infinity sign := by
  apply unpack_ofModel_infinity
  rw [isFinite_eq] at right
  rw [value] at positive
  rw [left]
  revert right positive
  cases y.toModel.unpack with
  | finite rightSign count place countPositive =>
      intro right positive
      have size : (0 : ℚ) < count * 2 ^ place := by positivity
      cases rightSign with
      | positive => cases sign <;> rfl
      | negative =>
          simp only [rational, factor] at positive
          linarith
  | zero => simp [rational]
  | _ => simp [UnpackedFloat.isFinite]

/-- Nothing is above zero once an infinity is taken from it. -/
theorem not_pos_sub_infinity (right : y.toModel.unpack = .infinity .positive) : ¬ 0 < x - y := by
  intro above
  have order : UnpackedFloat.lt (0 : Float).toModel.unpack (x - y).toModel.unpack = true :=
    decide_eq_true_iff.mp above
  have zero : (0 : Float).toModel.unpack = .zero .positive := rfl
  have difference : (x - y).toModel.unpack =
      UnpackedFloat.sub Format.binary64 x.toModel.unpack y.toModel.unpack := by
    apply unpack_ofModel_pack_of_infinite
    rw [right]
    cases x.toModel.unpack with
    | infinity leftSign => cases leftSign <;> rfl
    | _ => rfl
  have negated : -Sign.positive = .negative := rfl
  rw [zero, difference, right] at order
  revert order
  cases x.toModel.unpack with
  | infinity leftSign => cases leftSign <;> decide
  | _ => simp [UnpackedFloat.sub, UnpackedFloat.lt, UnpackedFloat.compare, negated]

/-- Numbers that are not negative are added by one rounding, infinities included. -/
theorem add_isNearest
    (number : x.isNaN = false)
    (leftNonneg : 0 ≤ saturated x)
    (right : y.isFinite = true)
    (rightNonneg : 0 ≤ value y) :
    IsNearest (saturated x + value y) (x + y) := by
  obtain left | infinite := finite_or_positive number leftNonneg
  · rw [saturated_of_isFinite left]
    exact (add_roundsTo left right).isNearest
  · have sum := unpack_infinity_add infinite right
    have large : overflow ≤ nearest (overflow + value y) :=
      le_nearest representable_overflow (by linarith)
    refine ⟨isNaN_of_infinite sum, ?_⟩
    rw [saturated_of_positive sum, saturated_of_positive infinite, saturate_of_large large]

/-- Numbers that are not negative are multiplied by one rounding, infinities included. -/
theorem mul_isNearest
    (number : x.isNaN = false)
    (leftNonneg : 0 ≤ saturated x)
    (right : y.isFinite = true)
    (atLeastOne : 1 ≤ value y) :
    IsNearest (saturated x * value y) (x * y) := by
  obtain left | infinite := finite_or_positive number leftNonneg
  · rw [saturated_of_isFinite left]
    exact (mul_roundsTo left right).isNearest
  · have product := unpack_infinity_mul infinite right (by linarith)
    have large : overflow ≤ nearest (overflow * value y) :=
      le_nearest representable_overflow (le_mul_of_one_le_right overflow_pos.le atLeastOne)
    refine ⟨isNaN_of_infinite product, ?_⟩
    rw [saturated_of_positive product, saturated_of_positive infinite, saturate_of_large large]

theorem sub_isNaN
    (number : x.isNaN = false)
    (nonneg : 0 ≤ saturated x)
    (right : y.isFinite = true) :
    (x - y).isNaN = false := by
  obtain left | infinite := finite_or_positive number nonneg
  · exact (sub_roundsTo left right).isNearest.1
  · exact isNaN_of_infinite (unpack_infinity_sub infinite right)

/-- A difference grows with what is taken from and shrinks with what is taken away. -/
theorem saturated_sub_mono
    {greater lesser : Float}
    (number : x.isNaN = false)
    (nonneg : 0 ≤ saturated x)
    (greaterNumber : greater.isNaN = false)
    (ordered : saturated x ≤ saturated greater)
    (right : y.isFinite = true)
    (lesserFinite : lesser.isFinite = true)
    (taken : value lesser ≤ value y) :
    saturated (x - y) ≤ saturated (greater - lesser) := by
  obtain finite | infinite := finite_or_positive greaterNumber (nonneg.trans ordered)
  · have left : x.isFinite = true := by
      rw [isFinite_iff_saturated_lt number nonneg]
      exact ordered.trans_lt
        ((isFinite_iff_saturated_lt greaterNumber (nonneg.trans ordered)).mp finite)
    rw [saturated_of_isFinite left, saturated_of_isFinite finite] at ordered
    exact (sub_roundsTo left right).isNearest.mono (sub_roundsTo finite lesserFinite).isNearest
      (by linarith)
  · rw [saturated_of_positive (unpack_infinity_sub infinite lesserFinite)]
    exact saturated_le_overflow (sub_isNaN number nonneg right)

end

/-! ## Whole parts -/

/-- The conversion to 64 bits takes the whole part and keeps within the range. -/
theorem toUInt64_saturated {x : Float} (number : x.isNaN = false) (nonneg : 0 ≤ saturated x) :
    (x.toUInt64.toNat : ℤ) = min ⌊saturated x⌋ (2 ^ 64 - 1) := by
  have size : UInt64.size = 2 ^ 64 := rfl
  have whole : x.toModel.unpack.toInt 0 (UInt64.size - 1) = ⌊saturated x⌋ ∨
      x.toModel.unpack.toInt 0 (UInt64.size - 1) = 2 ^ 64 - 1 ∧ 2 ^ 64 ≤ ⌊saturated x⌋ := by
    obtain finite | infinite := finite_or_positive number nonneg
    · rw [saturated_of_isFinite finite] at nonneg ⊢
      exact .inl (toInt_rational (canonical_of_isFinite finite) nonneg _ _)
    · rw [saturated_of_positive infinite, infinite]
      refine .inr ⟨rfl, Int.le_floor.mpr ?_⟩
      have large : (2 : ℚ) ^ (64 : ℤ) ≤ overflow :=
        zpow_le_zpow_right₀ (by norm_num) (by norm_num)
      exact_mod_cast large
  have floorNonneg : 0 ≤ ⌊saturated x⌋ := Int.floor_nonneg.mpr nonneg
  change ((UInt64.ofNatClamp (x.toModel.unpack.toInt 0 (UInt64.size - 1)).toNat).toNat : ℤ) = _
  generalize x.toModel.unpack.toInt 0 (UInt64.size - 1) = converted at whole
  rcases lt_or_ge converted.toNat UInt64.size with inside | outside
  · rw [UInt64.toNat_ofNatClamp_of_lt inside]
    omega
  · rw [UInt64.toNat_ofNatClamp_of_le outside]
    omega

end Binary64
end NetworkConsole
