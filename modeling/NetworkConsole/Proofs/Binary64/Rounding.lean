import Mathlib
import NetworkConsole.Proofs.Binary64.Nearest

/-!
# Rounding of unpacked floats

An operation computes a significand with two residual bits that tell where the exact
result lies above it. The bits survive every shift to a coarser place, so rounding the
significand at its last place is rounding the exact result.

The whole of Mathlib is imported here, where the modules on floats begin: lemmas that they
rest on, such as `Float.Model.UnpackedFloat.pack_unpack`, are in none of its parts.
-/

namespace NetworkConsole
namespace Binary64

open Float.Model
open Float.Model.UnpackedFloat (Accuracy ExtendedMantissa Sign)

/-! ## Significands with residual bits -/

/-- The exact number that a significand and its residual bits stand for, in units of the
significand's last digit. The round bit is worth a half, and the sticky bit says that
something less than another half is missing. -/
def Denotes (extended : ExtendedMantissa) (q : ℚ) : Prop :=
  let known : ℚ := extended.mantissa + if extended.roundBit then 1 / 2 else 0
  if extended.stickyBit then known < q ∧ q < known + 1 / 2 else q = known

@[simp] theorem mantissa_ofMantissaAndAccuracy (count : ℕ) (accuracy : Accuracy) :
    (ExtendedMantissa.ofMantissaAndAccuracy count accuracy).mantissa = count := by
  unfold ExtendedMantissa.ofMantissaAndAccuracy
  split <;> rfl

theorem denotes_exact (count : ℕ) :
    Denotes (.ofMantissaAndAccuracy count .exact) count := by
  simp [Denotes, ExtendedMantissa.ofMantissaAndAccuracy]

/-- A fraction below one has the accuracy that it is given. -/
theorem denotes_fraction
    (whole : ℕ)
    {remainder divisor : ℕ}
    (proper : remainder < divisor) :
    Denotes
      (.ofMantissaAndAccuracy whole (UnpackedFloat.accuracyOfFraction remainder divisor))
      (whole + remainder / divisor : ℚ) := by
  have divisorPositive : (0 : ℚ) < divisor := by exact_mod_cast Nat.zero_lt_of_lt proper
  have remainderSmall : (remainder : ℚ) < divisor := by exact_mod_cast proper
  unfold UnpackedFloat.accuracyOfFraction
  split_ifs with exact
  · simp [exact, Denotes, ExtendedMantissa.ofMantissaAndAccuracy]
  · have remainderPositive : (0 : ℚ) < remainder := by
      exact_mod_cast Nat.pos_of_ne_zero exact
    cases order : compare (2 * remainder) divisor with
    | lt =>
        have below : (2 * remainder : ℚ) < divisor := by
          exact_mod_cast compare_lt_iff_lt.mp order
        have half : (remainder : ℚ) / divisor < 1 / 2 := by
          rw [div_lt_iff₀ divisorPositive]
          linarith
        have := div_pos remainderPositive divisorPositive
        simp only [Denotes, ExtendedMantissa.ofMantissaAndAccuracy, Bool.false_eq_true,
          if_true, if_false]
        constructor <;> linarith
    | eq =>
        have equal : (2 * remainder : ℚ) = divisor := by
          exact_mod_cast compare_eq_iff_eq.mp order
        have half : (remainder : ℚ) / divisor = 1 / 2 := by
          rw [div_eq_iff divisorPositive.ne']
          linarith
        simp [Denotes, ExtendedMantissa.ofMantissaAndAccuracy, half]
    | gt =>
        have above : (divisor : ℚ) < 2 * remainder := by
          exact_mod_cast compare_gt_iff_gt.mp order
        have half : 1 / 2 < (remainder : ℚ) / divisor := by
          rw [lt_div_iff₀ divisorPositive]
          linarith
        have one : (remainder : ℚ) / divisor < 1 := (div_lt_one divisorPositive).mpr remainderSmall
        simp only [Denotes, ExtendedMantissa.ofMantissaAndAccuracy, if_true]
        constructor <;> linarith

/-- A quotient with the accuracy of its remainder stands for the exact quotient. -/
theorem denotes_quotient (dividend : ℕ) {divisor : ℕ} (positive : 0 < divisor) :
    Denotes
      (.ofMantissaAndAccuracy (dividend / divisor)
        (UnpackedFloat.accuracyOfFraction (dividend % divisor) divisor))
      (dividend / divisor : ℚ) := by
  have divisorPositive : (0 : ℚ) < divisor := by exact_mod_cast positive
  have division : (dividend : ℚ) =
      divisor * (dividend / divisor : ℕ) + (dividend % divisor : ℕ) := by
    exact_mod_cast (Nat.div_add_mod dividend divisor).symm
  have quotient : (dividend : ℚ) / divisor =
      (dividend / divisor : ℕ) + ((dividend % divisor : ℕ) : ℚ) / divisor := by
    rw [division]
    field_simp
  rw [quotient]
  exact denotes_fraction _ (Nat.mod_lt dividend positive)

namespace Denotes

variable {extended : ExtendedMantissa} {q : ℚ}

/-- The significand is the whole part of what it stands for. -/
theorem floor (denotes : Denotes extended q) : ⌊q⌋ = (extended.mantissa : ℤ) := by
  obtain ⟨count, roundBit, stickyBit⟩ := extended
  rw [Int.floor_eq_iff]
  cases roundBit <;> cases stickyBit <;>
    simp [Denotes] at denotes ⊢ <;> constructor <;> linarith

theorem nonneg (denotes : Denotes extended q) : 0 ≤ q := by
  rw [← Int.floor_nonneg, denotes.floor]
  positivity

/-- Rounding the significand by its residual bits is rounding what it stands for. -/
theorem roundedMantissa_eq (denotes : Denotes extended q) :
    (extended.roundedMantissa : ℤ) = nearestWhole q := by
  have floor := denotes.floor
  have split := Int.floor_add_fract q
  obtain ⟨count, roundBit, stickyBit⟩ := extended
  simp only [floor] at split
  cases roundBit <;> cases stickyBit <;>
    simp [Denotes, ExtendedMantissa.roundedMantissa, ExtendedMantissa.accuracy,
      Accuracy.roundToNearestEven] at denotes split ⊢
  · rw [nearestWhole_of_lt (by linarith), floor]
  · rw [nearestWhole_of_lt (by linarith), floor]
  · rw [nearestWhole_of_eq (by linarith), floor]
  · rw [nearestWhole_of_gt (by linarith), floor]

/-- A shift by one digit halves what a significand stands for. -/
theorem shiftRightOne (denotes : Denotes extended q) :
    Denotes extended.shiftRightOne (q / 2) := by
  obtain ⟨count, roundBit, stickyBit⟩ := extended
  have division : (count : ℚ) = 2 * (count / 2 : ℕ) + (count % 2 : ℕ) := by
    exact_mod_cast (Nat.div_add_mod count 2).symm
  rcases Nat.mod_two_eq_zero_or_one count with even | odd
  · rw [even] at division
    cases roundBit <;> cases stickyBit <;>
      simp [Denotes, ExtendedMantissa.shiftRightOne, even] at denotes division ⊢ <;>
      (try constructor) <;> linarith
  · rw [odd] at division
    cases roundBit <;> cases stickyBit <;>
      simp [Denotes, ExtendedMantissa.shiftRightOne, odd] at denotes division ⊢ <;>
      (try constructor) <;> linarith

theorem shiftRight (denotes : Denotes extended q) (digits : ℕ) :
    Denotes (extended >>> digits) (q / 2 ^ digits) := by
  change Denotes (digits.repeat ExtendedMantissa.shiftRightOne extended) _
  induction digits with
  | zero => simpa [Nat.repeat] using denotes
  | succ digits inductionHypothesis =>
      rw [pow_succ, ← div_div]
      exact inductionHypothesis.shiftRightOne

end Denotes

/-! ## Canonical floats -/

/-- Finite floats whose significand fills its 53 digits, or else lies at the least place.
The place may be too high for a packed float. -/
def Canonical : UnpackedFloat → Prop
  | .zero _ => True
  | .finite _ count place _ =>
      count < 2 ^ 53 ∧ -1074 ≤ place ∧ (2 ^ 52 ≤ count ∨ place = -1074)
  | _ => False

/-- A sign as a factor. -/
def factor : Sign → ℚ
  | .positive => 1
  | .negative => -1

/-- Rounding is symmetric in the sign. -/
theorem nearest_factor_mul (sign : Sign) (q : ℚ) :
    nearest (factor sign * q) = factor sign * nearest q := by
  cases sign <;> simp [factor, nearest_neg]

/-- The number that an unpacked float stands for, zero if it is not finite. -/
def rational : UnpackedFloat → ℚ
  | .finite sign count place _ => factor sign * (count * 2 ^ place)
  | _ => 0

/-- A rounded significand at its place. A significand that was rounded up to `2 ^ 53`
moves one place up. -/
def ofCount (sign : Sign) (count : ℕ) (place : ℤ) : UnpackedFloat :=
  if positive : 0 < count then
    if count < 2 ^ 53 then .finite sign count place positive
    else .finite sign (2 ^ 52) (place + 1) (by norm_num)
  else .zero sign

theorem canonical_ofCount
    {sign : Sign}
    {count : ℕ}
    {place : ℤ}
    (least : -1074 ≤ place)
    (full : 0 < count → 2 ^ 52 ≤ count ∨ place = -1074) :
    Canonical (ofCount sign count place) := by
  unfold ofCount
  split_ifs with positive small
  · exact ⟨small, least, full positive⟩
  · exact ⟨by norm_num, by omega, .inl le_rfl⟩
  · trivial

theorem rational_ofCount
    {sign : Sign}
    {count : ℕ}
    {place : ℤ}
    (bounded : count ≤ 2 ^ 53) :
    rational (ofCount sign count place) = factor sign * (count * 2 ^ place) := by
  unfold ofCount
  split_ifs with positive small
  · rfl
  · have carried : count = 2 ^ 53 := by omega
    rw [rational, carried, zpow_add₀ two_ne_zero]
    push_cast
    ring
  · have zero : count = 0 := by omega
    simp [rational, zero]

/-! ## Target exponents -/

theorem targetExponent_eq (total : ℤ) :
    Format.binary64.targetExponent total = max (total - 53) (-1074) := by
  rfl

/-- The last place of an exact number follows from its whole part. -/
theorem targetExponent_eq_lastPlace
    {count : ℕ}
    {place : ℤ}
    {q : ℚ}
    (positive : 0 < q)
    (floor : ⌊q⌋ = (count : ℤ))
    (covered : place ≤ Format.binary64.targetExponent (totalExponent count place)) :
    Format.binary64.targetExponent (totalExponent count place) = lastPlace (q * 2 ^ place) := by
  have scale : (0 : ℚ) < 2 ^ place := by positivity
  have product : 0 < q * 2 ^ place := mul_pos positive scale
  obtain ⟨low, high⟩ := Int.floor_eq_iff.mp floor
  rw [targetExponent_eq] at covered ⊢
  unfold totalExponent at covered ⊢
  unfold lastPlace
  rw [abs_of_pos product]
  rcases Nat.eq_zero_or_pos count with zero | countPositive
  · have below : q * 2 ^ place < ((2 : ℕ) : ℚ) ^ place := by
      have : q < 1 := by simpa [zero] using high
      simpa using mul_lt_mul_of_pos_right this scale
    have size := (Int.lt_zpow_iff_log_lt (by norm_num) product).mp below
    simp only [zero, Nat.log2_zero] at covered ⊢
    omega
  · have lower : ((2 : ℕ) : ℚ) ^ (count.log2 + place) ≤ q * 2 ^ place := by
      have power : ((2 ^ count.log2 : ℕ) : ℚ) ≤ count := by
        exact_mod_cast Nat.log2_self_le countPositive.ne'
      push_cast at power low ⊢
      rw [zpow_add₀ two_ne_zero, zpow_natCast]
      exact mul_le_mul_of_nonneg_right (power.trans low) scale.le
    have upper : q * 2 ^ place < ((2 : ℕ) : ℚ) ^ (count.log2 + 1 + place) := by
      have power : (count : ℚ) + 1 ≤ ((2 ^ (count.log2 + 1) : ℕ) : ℚ) := by
        exact_mod_cast Nat.lt_log2_self
      push_cast at power high ⊢
      rw [zpow_add₀ two_ne_zero]
      refine mul_lt_mul_of_pos_right (high.trans_le (power.trans_eq ?_)) scale
      norm_cast
    have atLeast := (Int.zpow_le_iff_le_log (by norm_num) product).mp lower
    have below := (Int.lt_zpow_iff_log_lt (by norm_num) product).mp upper
    omega

/-- A significand that fits its place is not shifted, and one that was rounded up to the
next power of two is shifted once. -/
theorem shiftToTargetExponent_mantissa
    {count : ℕ}
    {place : ℤ}
    (bounded : count ≤ 2 ^ 53)
    (least : -1074 ≤ place) :
    UnpackedFloat.shiftToTargetExponent Format.binary64 count place .exact =
      if count < 2 ^ 53 then (⟨count, false, false⟩, place)
      else (⟨2 ^ 52, false, false⟩, place + 1) := by
  unfold UnpackedFloat.shiftToTargetExponent UnpackedFloat.shiftToExponent
  rw [targetExponent_eq]
  unfold totalExponent
  split_ifs with small
  · have size : count.log2 ≤ 52 := by
      rcases Nat.eq_zero_or_pos count with zero | positive
      · simp [zero]
      · have := (Nat.log2_lt positive.ne').mpr small
        omega
    have shift : (max ((count.log2 : ℤ) + 1 + place - 53) (-1074) - place).toNat = 0 := by omega
    simp only [shift, Nat.cast_zero, add_zero]
    rfl
  · have carried : count = 2 ^ 53 := by omega
    have shift : (max (((2 ^ 53 : ℕ).log2 : ℤ) + 1 + place - 53) (-1074) - place).toNat = 1 := by
      rw [Nat.log2_two_pow]
      omega
    simp only [carried, shift]
    rfl

/-! ## Rounding operations -/

/-- Once the shifted significand is rounded, only a carry is left to do. -/
theorem roundWithAccuracy_eq_ofCount
    {sign : Sign}
    {count : ℕ}
    {place : ℤ}
    {accuracy : Accuracy}
    {shifted : ExtendedMantissa}
    {target : ℤ}
    (first : UnpackedFloat.shiftToTargetExponent Format.binary64 count place accuracy =
      (shifted, target))
    (bounded : shifted.roundedMantissa ≤ 2 ^ 53)
    (least : -1074 ≤ target) :
    UnpackedFloat.roundWithAccuracy Format.binary64 sign count place accuracy =
      ofCount sign shifted.roundedMantissa target := by
  have second := shiftToTargetExponent_mantissa bounded least
  unfold UnpackedFloat.roundWithAccuracy ofCount
  rw [first]
  dsimp only
  by_cases small : shifted.roundedMantissa < 2 ^ 53
  · rw [if_pos small] at second
    rw [second]
    rcases Nat.eq_zero_or_pos shifted.roundedMantissa with zero | positive
    · rw [dif_pos zero, dif_neg (by omega)]
    · rw [dif_neg positive.ne', dif_pos positive, if_pos small]
  · rw [if_neg small] at second
    rw [second, dif_neg (by norm_num), dif_pos (by omega), if_neg small]

/-- What an operation returns stands for its exact result rounded. -/
theorem roundWithAccuracy_rational
    (sign : Sign)
    {count : ℕ}
    {place : ℤ}
    {accuracy : Accuracy}
    {q : ℚ}
    (denotes : Denotes (.ofMantissaAndAccuracy count accuracy) q)
    (covered : place ≤ Format.binary64.targetExponent (totalExponent count place)) :
    Canonical (UnpackedFloat.roundWithAccuracy Format.binary64 sign count place accuracy) ∧
      rational (UnpackedFloat.roundWithAccuracy Format.binary64 sign count place accuracy) =
        factor sign * nearest (q * 2 ^ place) := by
  set target := Format.binary64.targetExponent (totalExponent count place) with targetDef
  set digits := (target - place).toNat with digitsDef
  set shifted := ExtendedMantissa.ofMantissaAndAccuracy count accuracy >>> digits with shiftedDef
  have exponent : place + (digits : ℤ) = target := by omega
  have least : -1074 ≤ target := by
    rw [targetDef, targetExponent_eq]
    omega
  have first : UnpackedFloat.shiftToTargetExponent Format.binary64 count place accuracy =
      (shifted, target) := by
    unfold UnpackedFloat.shiftToTargetExponent UnpackedFloat.shiftToExponent
    rw [← exponent]
  have rounded : (shifted.roundedMantissa : ℤ) = nearestWhole (q / 2 ^ digits) :=
    (denotes.shiftRight digits).roundedMantissa_eq
  rcases denotes.nonneg.eq_or_lt with zero | positive
  · have none : shifted.roundedMantissa = 0 := by
      rw [← zero, zero_div] at rounded
      exact_mod_cast rounded.trans (nearestWhole_intCast 0)
    rw [roundWithAccuracy_eq_ofCount first (by omega) least, none, ← zero]
    refine ⟨trivial, ?_⟩
    rw [zero_mul, nearest_zero, mul_zero]
    rfl
  · have place_eq : target = lastPlace (q * 2 ^ place) :=
      targetExponent_eq_lastPlace positive (by simpa using denotes.floor) covered
    have product : 0 < q * 2 ^ place := by positivity
    have scaled : q * 2 ^ place / 2 ^ target = q / 2 ^ digits := by
      rw [← exponent, zpow_add₀ two_ne_zero, zpow_natCast]
      field_simp
    have value : (shifted.roundedMantissa : ℚ) * 2 ^ target = nearest (q * 2 ^ place) := by
      unfold nearest
      rw [← place_eq, scaled, ← rounded]
      simp
    obtain ⟨bounded, full⟩ := count_bounds product (place_eq ▸ value)
    rw [← place_eq] at full
    rw [roundWithAccuracy_eq_ofCount first bounded least, rational_ofCount bounded, value]
    exact ⟨canonical_ofCount least fun _ => full, rfl⟩

theorem rational_decreaseExponent (count : ℕ) (place target : ℤ) :
    ((UnpackedFloat.decreaseExponent count place target).1 : ℚ) *
        2 ^ (UnpackedFloat.decreaseExponent count place target).2 =
      count * 2 ^ place := by
  unfold UnpackedFloat.decreaseExponent
  simp only [Nat.shiftLeft_eq]
  push_cast
  rw [← zpow_natCast, mul_assoc, ← zpow_add₀ two_ne_zero]
  congr 2
  omega

theorem totalExponent_shiftLeft {count : ℕ} (positive : 0 < count) (digits : ℕ) (place : ℤ) :
    totalExponent (count <<< digits) (place - digits) = totalExponent count place := by
  have size : (count <<< digits).log2 = count.log2 + digits := by
    obtain ⟨low, high⟩ := (Nat.log2_eq_iff positive.ne').mp rfl
    rw [Nat.shiftLeft_eq, Nat.log2_eq_iff (by positivity)]
    constructor
    · rw [pow_add]
      exact Nat.mul_le_mul_right _ low
    · rw [add_right_comm, pow_add]
      exact Nat.mul_lt_mul_of_pos_right high (by positivity)
  unfold totalExponent
  rw [size]
  push_cast
  ring

/-- A significand at any place is rounded to the nearest float. -/
theorem round_rational (sign : Sign) {count : ℕ} (positive : 0 < count) (place : ℤ) :
    Canonical (UnpackedFloat.round Format.binary64 sign count place) ∧
      rational (UnpackedFloat.round Format.binary64 sign count place) =
        factor sign * nearest (count * 2 ^ place) := by
  have value := rational_decreaseExponent count place
    (Format.binary64.targetExponent (totalExponent count place))
  unfold UnpackedFloat.round
  simp only [UnpackedFloat.decreaseExponent] at value ⊢
  rw [← value]
  apply roundWithAccuracy_rational sign (denotes_exact _)
  rw [totalExponent_shiftLeft positive]
  omega

/-- A signed significand at any place is rounded to the nearest float. -/
theorem normalize_rational (count place : ℤ) (zeroSign : Sign) :
    Canonical (UnpackedFloat.normalize Format.binary64 count place zeroSign) ∧
      rational (UnpackedFloat.normalize Format.binary64 count place zeroSign) =
        nearest (count * 2 ^ place) := by
  unfold UnpackedFloat.normalize
  rcases lt_trichotomy count 0 with negative | rfl | positive
  · rw [compare_lt_iff_lt.mpr negative]
    obtain ⟨canonical, value⟩ :=
      round_rational .negative (show 0 < (-count).toNat by omega) place
    refine ⟨canonical, value.trans ?_⟩
    have cast : ((-count).toNat : ℚ) = -count := by
      exact_mod_cast Int.toNat_of_nonneg (show 0 ≤ -count by omega)
    rw [cast, neg_mul, nearest_neg]
    simp [factor]
  · simp [Canonical, rational]
  · rw [compare_gt_iff_gt.mpr positive]
    obtain ⟨canonical, value⟩ :=
      round_rational .positive (show 0 < count.toNat by omega) place
    refine ⟨canonical, value.trans ?_⟩
    have cast : (count.toNat : ℚ) = count := by
      exact_mod_cast Int.toNat_of_nonneg positive.le
    rw [cast]
    simp [factor]

end Binary64
end NetworkConsole
