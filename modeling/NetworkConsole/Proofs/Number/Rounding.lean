import NetworkConsole.Number.Rounding
import NetworkConsole.Proofs.Binary64.Value

/-!
# Whole numbers beside their values

Truncation drops the fraction of a value, and rounding gives the nearest whole number, a
half away from zero. Both are finite only for finite numbers.
-/

namespace NetworkConsole
namespace Number

open Binary64
open Float.Model
open Float.Model.UnpackedFloat (Sign unpackSign)

/-- A float of at least `2 ^ 53` in magnitude is whole. -/
theorem abs_rational_eq_floor
    {unpacked : UnpackedFloat}
    (canonical : Canonical unpacked)
    (large : 2 ^ 53 ≤ |rational unpacked|) :
    |rational unpacked| = ⌊|rational unpacked|⌋ := by
  cases unpacked with
  | finite sign count place positive =>
      rw [abs_rational_finite] at large ⊢
      have below : (count : ℚ) < 2 ^ 53 := by exact_mod_cast canonical.1
      have high : 0 ≤ place := by
        by_contra low
        have scale : (2 : ℚ) ^ place ≤ 1 := zpow_le_one_of_nonpos₀ (by norm_num) (by omega)
        have product : (count : ℚ) * 2 ^ place ≤ count :=
          mul_le_of_le_one_right (by positivity) scale
        linarith
      obtain ⟨digits, rfl⟩ := Int.eq_ofNat_of_zero_le high
      have whole : (count : ℚ) * 2 ^ (digits : ℤ) = ((count * 2 ^ digits : ℕ) : ℚ) := by
        push_cast
        rw [zpow_natCast]
      rw [whole, Int.floor_natCast, Int.cast_natCast]
  | _ => norm_num [rational] at large

theorem isFinite_wholeFrom : wholeFrom.isFinite = true := rfl

theorem value_wholeFrom : value wholeFrom = 2 ^ 53 := by
  have unpacked : wholeFrom.toModel.unpack = .finite .positive (2 ^ 52) 1 (by norm_num) := rfl
  rw [value, unpacked, rational, factor]
  norm_num

theorem withSignOf_value (x : Float) {magnitude : Float} (finite : magnitude.isFinite = true) :
    (withSignOf x magnitude).isFinite = true ∧
      |value (withSignOf x magnitude)| = |value magnitude| := by
  unfold withSignOf
  split_ifs
  · obtain ⟨negFinite, exact⟩ := neg_value finite
    exact ⟨negFinite, by rw [exact, abs_neg]⟩
  · exact ⟨finite, rfl⟩

/-- The whole part of the magnitude is exact below `2 ^ 53`. -/
theorem wholePart_value
    {x : Float}
    (finite : x.isFinite = true)
    (small : |value x| < 2 ^ 53) :
    ∃ n : ℕ, n < 2 ^ 53 ∧ ⌊|value x|⌋ = n ∧
      (wholePart x).isFinite = true ∧ value (wholePart x) = n := by
  obtain ⟨absFinite, exact⟩ := abs_value finite
  have whole := toUInt64_toNat absFinite (by rw [exact]; positivity)
    (by rw [exact]; exact small.trans (by norm_num))
  rw [exact] at whole
  have bounded : x.abs.toUInt64.toNat < 2 ^ 53 := by
    have floor : ⌊|value x|⌋ < 2 ^ 53 := by
      rw [Int.floor_lt]
      exact_mod_cast small
    omega
  exact ⟨x.abs.toUInt64.toNat, bounded, whole.symm,
    (toFloat_roundsTo x.abs.toUInt64).value_eq_natCast bounded.le⟩

/-- Truncation drops the fraction of the magnitude. -/
theorem truncate_value {x : Float} (finite : x.isFinite = true) :
    (truncate x).isFinite = true ∧ |value (truncate x)| = ⌊|value x|⌋ := by
  obtain ⟨absFinite, exact⟩ := abs_value finite
  unfold truncate
  split_ifs with below
  · rw [lt_iff absFinite isFinite_wholeFrom, exact, value_wholeFrom] at below
    obtain ⟨n, -, floor, wholeFinite, whole⟩ := wholePart_value finite below
    obtain ⟨signedFinite, signed⟩ := withSignOf_value x wholeFinite
    exact ⟨signedFinite, by rw [signed, whole, floor, Nat.abs_cast, Int.cast_natCast]⟩
  · rw [lt_iff absFinite isFinite_wholeFrom, exact, value_wholeFrom, not_lt] at below
    exact ⟨finite, abs_rational_eq_floor (canonical_of_isFinite finite) below⟩

/-- Truncation is finite only for finite numbers. -/
theorem isFinite_of_truncate {x : Float} (finite : (truncate x).isFinite = true) :
    x.isFinite = true := by
  unfold truncate at finite
  split_ifs at finite with below
  · exact isFinite_of_abs_lt isFinite_wholeFrom below
  · exact finite

/-! ## Signs -/

theorem isNegative_iff_unpackSign (x : Float) :
    isNegative x = true ↔ @unpackSign Format.binary64 x.toBits.toBitVec = 1#1 := by
  have sign : (@unpackSign Format.binary64 x.toBits.toBitVec).toNat =
      x.toBits.toNat / 2 ^ 63 % 2 := by
    simp [unpackSign, Nat.shiftRight_eq_div_pow]
  have shifted : (x.toBits >>> 63).toNat = x.toBits.toNat / 2 ^ 63 := by
    simp [Nat.shiftRight_eq_div_pow]
  have size := x.toBits.toNat_lt
  rw [isNegative, beq_iff_eq, ← UInt64.toNat_inj, ← BitVec.toNat_inj, sign, shifted]
  change _ = 1 ↔ _ = 1
  omega

/-- The sign bit is a factor of the value. -/
theorem value_eq_factor_mul {x : Float} (finite : x.isFinite = true) :
    ∃ magnitude, 0 ≤ magnitude ∧
      value x = factor (.ofBitVec (@unpackSign Format.binary64 x.toBits.toBitVec)) * magnitude := by
  have fields : x.toModel.unpack = ofFields _ _ _ :=
    unpack_eq_ofFields (unreserved_of_isFinite finite)
  rw [value, fields, ofFields]
  split_ifs
  · exact ⟨_, by positivity, rfl⟩
  · exact ⟨0, le_rfl, by simp [rational]⟩
  · exact ⟨_, by positivity, rfl⟩

/-- The sign bit of a number that is not zero tells whether it is negative. -/
theorem isNegative_iff {x : Float} (finite : x.isFinite = true) (nonzero : value x ≠ 0) :
    isNegative x = true ↔ value x < 0 := by
  obtain ⟨magnitude, nonneg, exact⟩ := value_eq_factor_mul finite
  rw [isNegative_iff_unpackSign]
  rcases BitVec.eq_zero_or_eq_one (@unpackSign Format.binary64 x.toBits.toBitVec) with bit | bit
  · have positive : factor (.ofBitVec 0#1) = 1 := rfl
    rw [bit, positive, one_mul] at exact
    simp [bit, exact, nonneg]
  · have negative : factor (.ofBitVec 1#1) = -1 := rfl
    rw [bit, negative, neg_one_mul] at exact
    rw [exact, neg_ne_zero] at nonzero
    simp [bit, exact, nonneg.lt_of_ne' nonzero]

/-- A magnitude that is zero for zero gets the sign of the number. -/
theorem value_withSignOf
    {x magnitude : Float}
    (finite : x.isFinite = true)
    (magnitudeFinite : magnitude.isFinite = true)
    (zero : value x = 0 → value magnitude = 0) :
    value (withSignOf x magnitude) =
      if value x < 0 then -value magnitude else value magnitude := by
  have negated := (neg_value magnitudeFinite).2
  unfold withSignOf
  rcases lt_trichotomy (value x) 0 with negative | none | positive
  · rw [if_pos ((isNegative_iff finite negative.ne).mpr negative), negated, if_pos negative]
  · rw [if_neg none.not_lt]
    split_ifs
    · rw [negated, zero none, neg_zero]
    · rfl
  · rw [if_neg (mt (isNegative_iff finite positive.ne').mp positive.not_gt),
      if_neg positive.not_gt]

/-! ## Truncation -/

/-- The whole number that is left without the fraction. -/
def towardZero (q : ℚ) : ℤ := if q < 0 then -⌊-q⌋ else ⌊q⌋

theorem towardZero_mono {p q : ℚ} (ordered : p ≤ q) : towardZero p ≤ towardZero q := by
  unfold towardZero
  split_ifs with lower upper upper
  · exact neg_le_neg (Int.floor_le_floor (by linarith))
  · have left : 0 ≤ ⌊-p⌋ := Int.floor_nonneg.mpr (by linarith)
    have right : 0 ≤ ⌊q⌋ := Int.floor_nonneg.mpr (by linarith)
    omega
  · linarith
  · exact Int.floor_le_floor ordered

/-- Truncation drops the fraction. -/
theorem truncate_eq {x : Float} (finite : x.isFinite = true) :
    value (truncate x) = towardZero (value x) := by
  obtain ⟨absFinite, exact⟩ := abs_value finite
  unfold truncate
  by_cases below : x.abs < wholeFrom
  · rw [if_pos below]
    rw [lt_iff absFinite isFinite_wholeFrom, exact, value_wholeFrom] at below
    obtain ⟨n, -, floor, wholeFinite, whole⟩ := wholePart_value finite below
    have zero : value x = 0 → value (wholePart x) = 0 := by
      intro none
      rw [none, abs_zero, Int.floor_zero] at floor
      rw [whole, ← Int.cast_natCast, ← floor, Int.cast_zero]
    rw [value_withSignOf finite wholeFinite zero, whole, ← Int.cast_natCast, ← floor, towardZero]
    split_ifs with negative
    · rw [abs_of_neg negative, Int.cast_neg]
    · rw [abs_of_nonneg (not_lt.mp negative)]
  · rw [if_neg below]
    rw [lt_iff absFinite isFinite_wholeFrom, exact, value_wholeFrom, not_lt] at below
    have whole : |value x| = ⌊|value x|⌋ :=
      abs_rational_eq_floor (canonical_of_isFinite finite) below
    unfold towardZero
    split_ifs with negative
    · rw [abs_of_neg negative] at whole
      rw [Int.cast_neg, ← whole, neg_neg]
    · rwa [abs_of_nonneg (not_lt.mp negative)] at whole

/-! ## Rounding -/

/-- The nearest whole number, a half away from zero. -/
def nearestAwayOf (q : ℚ) : ℤ := if q < 0 then -⌊-q + 1 / 2⌋ else ⌊q + 1 / 2⌋

theorem nearestAwayOf_mono {p q : ℚ} (ordered : p ≤ q) : nearestAwayOf p ≤ nearestAwayOf q := by
  unfold nearestAwayOf
  split_ifs with lower upper upper
  · exact neg_le_neg (Int.floor_le_floor (by linarith))
  · have left : 0 ≤ ⌊-p + 1 / 2⌋ := Int.floor_nonneg.mpr (by linarith)
    have right : 0 ≤ ⌊q + 1 / 2⌋ := Int.floor_nonneg.mpr (by linarith)
    omega
  · linarith
  · exact Int.floor_le_floor (by linarith)

theorem nearestAwayOf_le (q : ℚ) : (nearestAwayOf q : ℚ) ≤ q + 1 / 2 := by
  unfold nearestAwayOf
  split_ifs
  · have passed := Int.lt_floor_add_one (-q + 1 / 2)
    push_cast
    linarith
  · exact Int.floor_le _

theorem abs_nearestAwayOf_le (q : ℚ) : |(nearestAwayOf q : ℚ)| ≤ |q| + 1 / 2 := by
  have nearest : |nearestAwayOf q| = ⌊|q| + 1 / 2⌋ := by
    have nonneg : 0 ≤ ⌊|q| + 1 / 2⌋ := Int.floor_nonneg.mpr (by positivity)
    unfold nearestAwayOf
    split_ifs with negative
    · rw [← abs_of_neg negative, abs_neg, abs_of_nonneg nonneg]
    · rw [← abs_of_nonneg (not_lt.mp negative), abs_of_nonneg nonneg, abs_abs]
  rw [← Int.cast_abs, nearest]
  exact Int.floor_le _

/-- The fraction of a float is representable. -/
theorem representable_fract {unpacked : UnpackedFloat} (canonical : Canonical unpacked) :
    Representable (Int.fract |rational unpacked|) := by
  cases unpacked with
  | zero sign => exact ⟨0, 0, by norm_num, by norm_num, by simp [rational]⟩
  | finite sign count place positive =>
      obtain ⟨bounded, least, -⟩ := canonical
      rw [abs_rational_finite]
      rcases le_or_gt 0 place with whole | fractional
      · obtain ⟨digits, rfl⟩ := Int.eq_ofNat_of_zero_le whole
        have product : (count : ℚ) * 2 ^ (digits : ℤ) = ((count * 2 ^ digits : ℕ) : ℚ) := by
          push_cast
          rw [zpow_natCast]
        rw [product, Int.fract_natCast]
        exact ⟨0, 0, by norm_num, by norm_num, by simp⟩
      · obtain ⟨digits, rfl⟩ := Int.exists_eq_neg_ofNat fractional.le
        have quotient : (count : ℚ) * 2 ^ (-(digits : ℤ)) = count / (2 ^ digits : ℕ) := by
          push_cast
          rw [zpow_neg, zpow_natCast, div_eq_mul_inv]
        rw [quotient, Int.fract_div_natCast_eq_div_natCast_mod]
        refine ⟨(count % 2 ^ digits : ℕ), -(digits : ℤ), ?_, least, ?_⟩
        · rw [Nat.abs_cast]
          exact_mod_cast (Nat.mod_le _ _).trans_lt bounded
        · rw [Int.cast_natCast, zpow_neg, zpow_natCast, Nat.cast_pow, Nat.cast_ofNat,
            div_eq_mul_inv]
  | _ => exact canonical.elim

theorem value_half : value 0.5 = 1 / 2 := by
  have unpacked : (0.5 : Float).toModel.unpack = .finite .positive (2 ^ 52) (-53) (by norm_num) :=
    rfl
  rw [value, unpacked, rational, factor]
  norm_num

/-- Whether the fraction of a magnitude is below a half is decided exactly. -/
theorem fraction_lt_half_iff {x : Float} (finite : x.isFinite = true) (small : |value x| < 2 ^ 53) :
    x.abs - wholePart x < 0.5 ↔ Int.fract |value x| < 1 / 2 := by
  obtain ⟨absFinite, exact⟩ := abs_value finite
  obtain ⟨n, -, floor, wholeFinite, whole⟩ := wholePart_value finite small
  have difference := sub_roundsTo absFinite wholeFinite
  have fraction : value x.abs - value (wholePart x) = Int.fract |value x| := by
    rw [exact, whole, Int.fract, floor, Int.cast_natCast]
  have kept : nearest (Int.fract |value x|) = Int.fract |value x| :=
    (representable_fract (canonical_of_isFinite finite)).nearest_eq
  rw [fraction] at difference
  have below : abs (Int.fract |value x|) ≤ (1 : ℕ) := by
    rw [Int.abs_fract, Nat.cast_one]
    exact (Int.fract_lt_one _).le
  have differenceFinite := difference.isFinite_of_le (representable_natCast (by norm_num))
    (natCast_lt_overflow (by norm_num)) below
  rw [lt_iff differenceFinite rfl, value_half, difference.value_eq differenceFinite, kept]

theorem floor_add_half (q : ℚ) :
    ⌊q + 1 / 2⌋ = if Int.fract q < 1 / 2 then ⌊q⌋ else ⌊q⌋ + 1 := by
  have split := Int.floor_add_fract q
  have below := Int.fract_lt_one q
  have nonneg := Int.fract_nonneg q
  split_ifs with small
  · rw [Int.floor_eq_iff]
    constructor <;> linarith
  · rw [Int.floor_eq_iff]
    push_cast
    constructor <;> linarith

/-- A whole number is the nearest one to itself. -/
theorem nearestAwayOf_of_abs_eq_floor {q : ℚ} (whole : |q| = ⌊|q|⌋) : nearestAwayOf q = q := by
  have nearest : ⌊|q| + 1 / 2⌋ = ⌊|q|⌋ := by
    rw [whole, Int.floor_intCast, floor_add_half, Int.fract_intCast, if_pos (by norm_num),
      Int.floor_intCast]
  unfold nearestAwayOf
  split_ifs with negative
  · rw [abs_of_neg negative] at whole nearest
    rw [nearest, Int.cast_neg, ← whole, neg_neg]
  · rw [abs_of_nonneg (not_lt.mp negative)] at whole nearest
    rw [nearest, ← whole]

/-- The rounded magnitude of what is not whole already. -/
theorem roundedMagnitude_value
    {x : Float}
    (finite : x.isFinite = true)
    (small : |value x| < 2 ^ 53) :
    let magnitude := if x.abs - wholePart x < 0.5 then wholePart x else wholePart x + 1
    magnitude.isFinite = true ∧ value magnitude = ⌊|value x| + 1 / 2⌋ := by
  obtain ⟨n, bounded, floor, wholeFinite, whole⟩ := wholePart_value finite small
  intro magnitude
  have exact := fraction_lt_half_iff finite small
  rw [floor_add_half, floor]
  by_cases below : x.abs - wholePart x < 0.5
  · have taken : magnitude = wholePart x := if_pos below
    rw [taken, if_pos (exact.mp below)]
    exact ⟨wholeFinite, whole.trans (Int.cast_natCast n).symm⟩
  · have taken : magnitude = wholePart x + 1 := if_neg below
    have next := add_roundsTo wholeFinite (isFinite_ofNat (n := 1) (by norm_num))
    rw [whole, value_ofNat (by norm_num), ← Nat.cast_add] at next
    obtain ⟨nextFinite, exactNext⟩ := next.value_eq_natCast bounded
    rw [taken, if_neg (mt exact.mpr below)]
    exact ⟨nextFinite, exactNext.trans (by push_cast; rfl)⟩

/-- The sign bit makes the nearest whole number from the one to the magnitude. -/
theorem withSignOf_roundedMagnitude
    {x magnitude : Float}
    (finite : x.isFinite = true)
    (magnitudeFinite : magnitude.isFinite = true)
    (exact : value magnitude = ⌊|value x| + 1 / 2⌋) :
    value (withSignOf x magnitude) = nearestAwayOf (value x) := by
  have zero : value x = 0 → value magnitude = 0 := by
    intro none
    rw [exact, none]
    norm_num
  rw [value_withSignOf finite magnitudeFinite zero, exact, nearestAwayOf]
  split_ifs with negative
  · rw [abs_of_neg negative, Int.cast_neg]
  · rw [abs_of_nonneg (not_lt.mp negative)]

/-- Rounding gives the nearest whole number, a half away from zero. -/
theorem round_eq {x : Float} (finite : x.isFinite = true) :
    (round x).isFinite = true ∧ value (round x) = nearestAwayOf (value x) := by
  obtain ⟨absFinite, exact⟩ := abs_value finite
  unfold round
  by_cases below : x.abs < wholeFrom
  · rw [if_pos below]
    rw [lt_iff absFinite isFinite_wholeFrom, exact, value_wholeFrom] at below
    obtain ⟨magnitudeFinite, magnitude⟩ := roundedMagnitude_value finite below
    exact ⟨(withSignOf_value x magnitudeFinite).1,
      withSignOf_roundedMagnitude finite magnitudeFinite magnitude⟩
  · rw [if_neg below]
    rw [lt_iff absFinite isFinite_wholeFrom, exact, value_wholeFrom, not_lt] at below
    exact ⟨finite, (nearestAwayOf_of_abs_eq_floor
      (abs_rational_eq_floor (canonical_of_isFinite finite) below)).symm⟩

/-- Rounding gives a whole value. -/
theorem round_value {x : Float} (finite : x.isFinite = true) :
    (round x).isFinite = true ∧ ∃ magnitude : ℕ, |value (round x)| = magnitude := by
  obtain ⟨roundFinite, exact⟩ := round_eq finite
  refine ⟨roundFinite, (nearestAwayOf (value x)).natAbs, ?_⟩
  rw [exact, Nat.cast_natAbs, Int.cast_abs]

/-- Rounding is finite only for finite numbers. -/
theorem isFinite_of_round {x : Float} (finite : (round x).isFinite = true) :
    x.isFinite = true := by
  unfold round at finite
  split_ifs at finite with below
  · exact isFinite_of_abs_lt isFinite_wholeFrom below
  · exact isFinite_of_abs_lt isFinite_wholeFrom below
  · exact finite

end Number
end NetworkConsole
