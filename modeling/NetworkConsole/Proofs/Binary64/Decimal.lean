import NetworkConsole.Proofs.Binary64.Saturation

/-!
# Decimal numbers as floats

A decimal number with any number of digits and any exponent is converted to the float
nearest to it. The conversion takes a short way for small numbers, whose power of ten is
exact, and gives up where the exponent alone tells that the number is too large or too
small.
-/

namespace NetworkConsole
namespace Binary64

open Float.Model
open Float.Model.UnpackedFloat (Sign)

/-! ## Nearest floats -/

/-- A float is the one nearest to an exact number, an infinity if that is too large. -/
def IsNearest (q : ℚ) (x : Float) : Prop :=
  x.isNaN = false ∧ saturated x = saturate (nearest q)

theorem RoundsTo.isNearest {q : ℚ} {x : Float} (rounds : RoundsTo q x) : IsNearest q x :=
  rounds.saturated_eq

theorem IsNearest.neg {q : ℚ} {x : Float} (isNearest : IsNearest q x) : IsNearest (-q) (-x) := by
  obtain ⟨number, exact⟩ := isNearest
  obtain ⟨negNumber, negated⟩ := saturated_neg number
  refine ⟨negNumber, ?_⟩
  rw [negated, exact, nearest_neg, saturate_neg]

/-- A number that is far below the least place is rounded to zero. -/
theorem nearest_of_tiny {q : ℚ} (positive : 0 < q) (tiny : q < 2 ^ (-1076 : ℤ)) :
    nearest q = 0 := by
  have place : lastPlace q = -1074 := by
    apply le_antisymm
    · apply lastPlace_le positive.ne' _ le_rfl
      rw [abs_of_pos positive]
      exact tiny.trans (zpow_lt_zpow_right₀ (by norm_num) (by norm_num))
    · exact le_max_right _ _
  have scaled : q / 2 ^ (-1074 : ℤ) < 1 / 4 := by
    have quarter : (2 : ℚ) ^ (-1076 : ℤ) = 2 ^ (-2 : ℤ) * 2 ^ (-1074 : ℤ) := by
      rw [← zpow_add₀ two_ne_zero]
      rfl
    rw [div_lt_iff₀ (by positivity)]
    refine tiny.trans_eq (quarter.trans ?_)
    norm_num
  have nonneg : 0 ≤ q / 2 ^ (-1074 : ℤ) := by positivity
  have floor : ⌊q / 2 ^ (-1074 : ℤ)⌋ = 0 := by
    rw [Int.floor_eq_zero_iff]
    exact ⟨nonneg, by linarith⟩
  have fract : Int.fract (q / 2 ^ (-1074 : ℤ)) < 1 / 2 := by
    rw [Int.fract, floor, Int.cast_zero, sub_zero]
    linarith
  rw [nearest, place, nearestWhole_of_lt fract, floor, Int.cast_zero, zero_mul]

/-- A number that is too large is rounded to an infinity. -/
theorem isNearest_infinity {q : ℚ} (large : overflow ≤ q) :
    IsNearest q (Float.ofModel (Float.Model.pack (.infinity .positive))) := by
  have above : overflow ≤ nearest q := le_nearest (representable_two_zpow 1024 (by norm_num)) large
  have infinite : (Float.ofModel (Float.Model.pack (.infinity .positive))).toModel.unpack =
      .infinity .positive := rfl
  refine ⟨isNaN_of_infinite infinite, ?_⟩
  have := overflow_pos
  rw [saturated_of_infinite infinite, factor, one_mul, saturate, min_eq_left above,
    max_eq_right (by linarith)]

/-- A number that is rounded to zero has the float zero as nearest one. -/
theorem isNearest_zero {q : ℚ} (rounded : nearest q = 0) :
    IsNearest q (Float.ofModel (Float.Model.pack (.zero .positive))) := by
  have roundsTo : RoundsTo q (Float.ofModel (Float.Model.pack (.zero .positive))) :=
    ⟨.zero .positive, trivial, rounded.symm, rfl⟩
  exact roundsTo.isNearest

/-! ## Powers of ten -/

/-- The small powers of ten are floats. -/
theorem value_powerOfTen : ∀ exponent : Fin Float.exactlyRepresentablePowersOfTen.size,
    Float.exactlyRepresentablePowersOfTen[exponent].isFinite = true ∧
      value Float.exactlyRepresentablePowersOfTen[exponent] = 10 ^ exponent.val := by
  decide +kernel

/-! ## Conversion -/

variable {digits : ℕ} {exponent : ℤ}

/-- A decimal fraction is a quotient by a power of ten. -/
theorem roundsTo_ofScientific_of_neg
    (positive : 0 < digits)
    (negative : exponent < 0)
    (notSmall : -(2048 + (digits.log2 : ℤ)) ≤ exponent) :
    RoundsTo (digits * 10 ^ exponent)
      (Float.ofModel (Float.Model.ofScientific digits exponent)) := by
  have powerPositive : 0 < 10 ^ (-exponent).toNat := by positivity
  have quotient : UnpackedFloat.ofScientific Format.binary64 digits exponent =
      UnpackedFloat.div Format.binary64 (.finite .positive digits 0 positive)
        (.finite .positive (10 ^ (-exponent).toNat) 0 powerPositive) := by
    have width : (2 : ℤ) ^ Format.binary64.exponentBits = 2048 := rfl
    unfold UnpackedFloat.ofScientific
    rw [dif_neg positive.ne', if_neg (by omega), if_neg (by omega), if_neg (by omega)]
  have exact : rational (.finite .positive digits 0 positive) /
      rational (.finite .positive (10 ^ (-exponent).toNat) 0 powerPositive) =
        digits * 10 ^ exponent := by
    have power : (10 : ℚ) ^ exponent = (10 ^ (-exponent).toNat)⁻¹ := by
      rw [← zpow_natCast, ← zpow_neg, Int.toNat_of_nonneg (by omega), neg_neg]
    rw [power]
    simp [rational, factor, div_eq_mul_inv]
  obtain ⟨canonical, rounded⟩ :=
    div_finite_rational .positive .positive 0 0 positive powerPositive
  rw [← quotient, exact] at rounded
  rw [← quotient] at canonical
  exact ⟨_, canonical, rounded, rfl⟩

theorem overflow_le_of_large (positive : 0 < digits) (large : 2048 < exponent) :
    overflow ≤ digits * 10 ^ exponent := by
  have one : (1 : ℚ) ≤ digits := by exact_mod_cast positive
  calc overflow
      ≤ 2 ^ exponent := zpow_le_zpow_right₀ (by norm_num) (by omega)
    _ ≤ 10 ^ exponent := zpow_le_zpow_left₀ (by omega) (by norm_num) (by norm_num)
    _ ≤ digits * 10 ^ exponent := le_mul_of_one_le_left (by positivity) one

theorem nearest_of_small
    (positive : 0 < digits)
    (small : exponent < -(2048 + (digits.log2 : ℤ))) :
    nearest (digits * 10 ^ exponent) = 0 := by
  have someDigit : (0 : ℚ) < digits := by exact_mod_cast positive
  have size : (digits : ℚ) < 2 ^ ((digits.log2 : ℤ) + 1) := by
    exact_mod_cast Nat.lt_log2_self
  have power : (10 : ℚ) ^ exponent ≤ 2 ^ exponent := by
    have inverse := inv_anti₀ (by positivity)
      (zpow_le_zpow_left₀ (show 0 ≤ -exponent by omega) (by norm_num : (0 : ℚ) ≤ 2)
        (by norm_num : (2 : ℚ) ≤ 10))
    rwa [← zpow_neg, ← zpow_neg, neg_neg] at inverse
  apply nearest_of_tiny (by positivity)
  calc (digits : ℚ) * 10 ^ exponent
      < 2 ^ ((digits.log2 : ℤ) + 1) * 2 ^ exponent :=
        mul_lt_mul size power (by positivity) (by positivity)
    _ = 2 ^ ((digits.log2 : ℤ) + 1 + exponent) := (zpow_add₀ two_ne_zero _ _).symm
    _ ≤ 2 ^ (-1076 : ℤ) := zpow_le_zpow_right₀ (by norm_num) (by omega)

/-- The conversion of a decimal with any exponent rounds it once. -/
theorem isNearest_ofScientific_model (digits : ℕ) (exponent : ℤ) :
    IsNearest (digits * 10 ^ exponent)
      (Float.ofModel (Float.Model.ofScientific digits exponent)) := by
  have width : (2 : ℤ) ^ Format.binary64.exponentBits = 2048 := rfl
  rcases Nat.eq_zero_or_pos digits with rfl | positive
  · rw [Nat.cast_zero, zero_mul]
    exact isNearest_zero nearest_zero
  · rcases lt_or_ge 2048 exponent with large | notLarge
    · have infinite : UnpackedFloat.ofScientific Format.binary64 digits exponent =
          .infinity .positive := by
        unfold UnpackedFloat.ofScientific
        rw [dif_neg positive.ne', if_pos (by omega)]
      rw [Float.Model.ofScientific, infinite]
      exact isNearest_infinity (overflow_le_of_large positive large)
    · rcases lt_or_ge exponent (-(2048 + (digits.log2 : ℤ))) with small | notSmall
      · have zero : UnpackedFloat.ofScientific Format.binary64 digits exponent =
            .zero .positive := by
          unfold UnpackedFloat.ofScientific
          rw [dif_neg positive.ne', if_neg (by omega), if_pos (by omega)]
        rw [Float.Model.ofScientific, zero]
        exact isNearest_zero (nearest_of_small positive small)
      · rcases lt_or_ge exponent 0 with negative | nonneg
        · exact (roundsTo_ofScientific_of_neg positive negative notSmall).isNearest
        · exact (roundsTo_ofScientific_of_nonneg positive nonneg notLarge).isNearest

/-- Few digits and a small power of ten are floats, so that one operation rounds once. -/
theorem roundsTo_ofScientific_of_small
    {exponent : ℕ}
    (fewDigits : digits < 2 ^ 53)
    (small : exponent ≤ 22)
    (divided : Bool) :
    RoundsTo (digits * 10 ^ (if divided then -(exponent : ℤ) else exponent))
      (Float.ofScientific digits divided exponent) := by
  have size : digits.toUInt64.toNat = digits :=
    UInt64.toNat_ofNat_of_lt' (fewDigits.trans (by norm_num))
  have converted := toFloat_roundsTo digits.toUInt64
  rw [size] at converted
  obtain ⟨finite, exact⟩ := converted.value_eq_natCast fewDigits.le
  obtain ⟨powerFinite, powerExact⟩ := value_powerOfTen ⟨exponent, Nat.lt_succ_of_le small⟩
  rw [Float.ofScientific, dif_pos ⟨fewDigits, small⟩]
  cases divided with
  | true =>
      have nonzero : (10 : ℚ) ^ exponent ≠ 0 := by positivity
      have quotient := div_roundsTo finite powerFinite (by rwa [powerExact])
      rw [exact, powerExact] at quotient
      rw [if_pos rfl, zpow_neg, zpow_natCast, ← div_eq_mul_inv]
      exact quotient
  | false =>
      have product := mul_roundsTo finite powerFinite
      rw [exact, powerExact] at product
      rw [if_neg Bool.false_ne_true, zpow_natCast]
      exact product

/-- A decimal is converted to the float nearest to it. -/
theorem isNearest_ofScientific (digits : ℕ) (divided : Bool) (exponent : ℕ) :
    IsNearest (digits * 10 ^ (if divided then -(exponent : ℤ) else exponent))
      (Float.ofScientific digits divided exponent) := by
  by_cases small : digits < 2 ^ 53 ∧ exponent ≤ 22
  · exact (roundsTo_ofScientific_of_small small.1 small.2 divided).isNearest
  · rw [Float.ofScientific, dif_neg small]
    cases divided with
    | true => exact Int.negOfNat_eq ▸ isNearest_ofScientific_model digits (-(exponent : ℤ))
    | false => exact isNearest_ofScientific_model digits exponent

end Binary64
end NetworkConsole
