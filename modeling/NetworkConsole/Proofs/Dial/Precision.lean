import NetworkConsole.Dial.Linkage
import NetworkConsole.Proofs.Binary64.Overflow
import NetworkConsole.Proofs.Dial.Scale

/-!
# Precision beside ranges

A value is brought to its dial's precision before it is compared with the dial's range.
The precision keeps the order of values, so what lies beyond an end of the range at the
dial's precision was beyond it before. Only the bandwidth dial differs at its lower end:
it rounds to zero what lies below half of its last decimal. What is so large that the
precision cannot be computed is not finite afterwards.
-/

namespace NetworkConsole

open Binary64

namespace Dial

/-! ## Finite values -/

/-- What a value is multiplied by before the dial's precision drops its fraction. -/
def factor : Dial → Float
  | .bandwidth => 100
  | _ => 1 + slack

theorem isFinite_factor (dial : Dial) : dial.factor.isFinite = true := by
  cases dial <;> rfl

theorem value_factor_bounds (dial : Dial) : 1 ≤ value dial.factor ∧ value dial.factor ≤ 2 ^ 7 := by
  cases dial with
  | bandwidth =>
      have hundred : value (Dial.factor .bandwidth) = 100 := value_ofNat (n := 100) (by norm_num)
      rw [hundred]
      norm_num
  | _ =>
      change 1 ≤ value (1 + slack) ∧ value (1 + slack) ≤ 2 ^ 7
      rw [value_one_add_slack]
      norm_num

/-- A hundredth of a finite number is finite. -/
theorem isFinite_hundredth {x : Float} (finite : x.isFinite = true) :
    (x / 100).isFinite = true := by
  have double : overflow = 2 ^ (1023 : ℤ) * 2 := zpow_add_one₀ two_ne_zero 1023
  have small : |value x / 100| < overflowFrom := by
    have bounded := abs_value_lt_overflow finite
    rw [double] at bounded
    have half := two_zpow_le_overflowFrom
    generalize (2 : ℚ) ^ (1023 : ℤ) = power at bounded half
    rw [abs_div, abs_of_pos (by norm_num : (0 : ℚ) < 100), div_lt_iff₀ (by norm_num)]
    linarith [abs_nonneg (value x)]
  rw [(hundredth_roundsTo finite).isFinite_iff, abs_nearest_lt_overflow_iff]
  exact small

theorem isFinite_normalize_iff_mul (dial : Dial) (x : Float) :
    (dial.normalize x).isFinite = true ↔ (x * dial.factor).isFinite = true := by
  cases dial with
  | bandwidth =>
      constructor
      · intro finite
        exact Number.isFinite_of_round (isFinite_of_div finite)
      · intro finite
        exact isFinite_hundredth (Number.round_eq finite).1
  | _ =>
      constructor
      · exact Number.isFinite_of_truncate
      · intro finite
        exact (Number.truncate_value finite).1

/-- The precision of a finite value can be computed unless its product is too large. -/
theorem isFinite_normalize_iff (dial : Dial) (x : Float) :
    (dial.normalize x).isFinite = true ↔
      x.isFinite = true ∧ |value x| * value dial.factor < overflowFrom := by
  have positive : 0 < value dial.factor := by linarith [dial.value_factor_bounds.1]
  rw [isFinite_normalize_iff_mul, isFinite_mul_iff, abs_mul, abs_of_pos positive]
  simp [dial.isFinite_factor]

/-- A number of moderate size stays finite at the precision of any dial. -/
theorem isFinite_normalize_of_le
    (dial : Dial)
    {x : Float}
    (finite : x.isFinite = true)
    (nonneg : 0 ≤ value x)
    (bounded : value x ≤ 2 ^ (42 : ℤ)) :
    (dial.normalize x).isFinite = true := by
  rw [isFinite_normalize_iff, abs_of_nonneg nonneg]
  refine ⟨finite, ?_⟩
  have size : (2 : ℚ) ^ (42 : ℤ) * 2 ^ 7 < 2 ^ (1023 : ℤ) := by
    rw [← zpow_natCast, ← zpow_add₀ two_ne_zero]
    exact zpow_lt_zpow_right₀ (by norm_num) (by norm_num)
  have positive : 0 ≤ value dial.factor := by linarith [dial.value_factor_bounds.1]
  calc value x * value dial.factor ≤ 2 ^ (42 : ℤ) * 2 ^ 7 :=
        mul_le_mul bounded dial.value_factor_bounds.2 positive (by positivity)
    _ < 2 ^ (1023 : ℤ) := size
    _ ≤ overflowFrom := two_zpow_le_overflowFrom

/-! ## Order -/

/-- The precision of a dial keeps the order of values. -/
theorem normalize_mono
    {dial : Dial}
    {x y : Float}
    (lower : (dial.normalize x).isFinite = true)
    (upper : (dial.normalize y).isFinite = true)
    (ordered : value x ≤ value y) :
    value (dial.normalize x) ≤ value (dial.normalize y) := by
  have positive : 0 ≤ value dial.factor := by linarith [dial.value_factor_bounds.1]
  have lowerProduct := (dial.isFinite_normalize_iff_mul x).mp lower
  have upperProduct := (dial.isFinite_normalize_iff_mul y).mp upper
  have products : value (x * dial.factor) ≤ value (y * dial.factor) :=
    (mul_roundsTo (isFinite_of_mul lowerProduct).1 dial.isFinite_factor).mono
      (mul_roundsTo (isFinite_of_mul upperProduct).1 dial.isFinite_factor)
      lowerProduct upperProduct (mul_le_mul_of_nonneg_right ordered positive)
  cases dial with
  | bandwidth =>
      obtain ⟨lowerRound, lowerExact⟩ := Number.round_eq lowerProduct
      obtain ⟨upperRound, upperExact⟩ := Number.round_eq upperProduct
      apply (hundredth_roundsTo lowerRound).mono (hundredth_roundsTo upperRound) lower upper
      rw [lowerExact, upperExact]
      exact div_le_div_of_nonneg_right (by exact_mod_cast Number.nearestAwayOf_mono products)
        (by norm_num)
  | _ =>
      have truncated : (Number.towardZero (value (x * Dial.factor _)) : ℚ) ≤
          Number.towardZero (value (y * Dial.factor _)) :=
        Int.cast_le.mpr (Number.towardZero_mono products)
      exact (Number.truncate_eq lowerProduct).trans_le
        (truncated.trans_eq (Number.truncate_eq upperProduct).symm)

/-! ## Ends of the range -/

/-- The value from which on the dial's precision does not fall below its range. Half of the
last decimal is rounded up. -/
def entry : Dial → Float
  | .seconds => Dial.min .seconds
  | .size => Dial.min .size
  | .packets => Dial.min .packets
  | .bandwidth => 0.005

/-- A value lies below or above a dial's range. What the bandwidth dial rounds to zero counts
as below its range. -/
def IsBeyond (dial : Dial) : Bound → Float → Prop
  | .min, x => x < dial.entry
  | .max, x => dial.max < x

theorem isFinite_entry (dial : Dial) : dial.entry.isFinite = true := by
  cases dial <;> rfl

theorem accepts_normalize_entry (dial : Dial) :
    dial.accepts (dial.normalize dial.entry) = true := by
  cases dial <;> decide +kernel

theorem normalize_max (dial : Dial) : dial.normalize dial.max = dial.max := by
  cases dial <;> decide +kernel

/-- What the dial does not accept at its precision lies beyond the end that is reported. -/
theorem isBeyond_crossed
    {dial : Dial}
    {x : Float}
    (finite : (dial.normalize x).isFinite = true)
    (refused : dial.accepts (dial.normalize x) = false) :
    dial.IsBeyond (.crossed dial (dial.normalize x)) x := by
  have xFinite := ((dial.isFinite_normalize_iff x).mp finite).1
  unfold Bound.crossed
  by_cases low : dial.normalize x < dial.min
  · rw [if_pos (by simp [finite, low])]
    rw [lt_iff finite dial.isFinite_min] at low
    change x < dial.entry
    rw [lt_iff xFinite dial.isFinite_entry]
    by_contra above
    obtain ⟨entryFinite, least, -⟩ := (accepts_iff _ _).mp dial.accepts_normalize_entry
    have order := normalize_mono entryFinite finite (not_lt.mp above)
    linarith
  · rw [if_neg (by simp [low])]
    rw [lt_iff finite dial.isFinite_min, not_lt] at low
    change dial.max < x
    rw [lt_iff dial.isFinite_max xFinite]
    by_contra below
    have order := normalize_mono finite (dial.normalize_max.symm ▸ dial.isFinite_max)
      (not_lt.mp below)
    rw [normalize_max] at order
    have accepted := (accepts_iff _ _).mpr ⟨finite, low, order⟩
    rw [refused] at accepted
    exact absurd accepted (by decide)

/-- What is not finite is reported as too large. -/
theorem crossed_of_not_isFinite {dial : Dial} {x : Float} (infinite : x.isFinite = false) :
    Bound.crossed dial x = .max := by
  rw [Bound.crossed, infinite, Bool.false_and, if_neg (by decide)]

/-- A finite value whose precision cannot be computed lies far beyond the range. -/
theorem isBeyond_max_of_not_isFinite_normalize
    {dial : Dial}
    {x : Float}
    (finite : x.isFinite = true)
    (nonneg : ¬ x < 0)
    (infinite : (dial.normalize x).isFinite = false) :
    dial.IsBeyond .max x := by
  have zero : value 0 = 0 := value_ofNat (n := 0) (by norm_num)
  rw [lt_iff finite rfl, zero, not_lt] at nonneg
  change dial.max < x
  rw [lt_iff dial.isFinite_max finite]
  by_contra below
  have bounded : value x ≤ 2 ^ (42 : ℤ) :=
    (not_lt.mp below).trans (dial.value_max_le.trans (by norm_num))
  rw [dial.isFinite_normalize_of_le finite nonneg bounded] at infinite
  exact absurd infinite (by decide)

/-! ## Clamping -/

theorem clamp_of_accepts {dial : Dial} {x : Float} (accepted : dial.accepts x = true) :
    dial.clamp x = x := by
  obtain ⟨finite, least, greatest⟩ := (accepts_iff _ _).mp accepted
  have low : ¬ x < dial.min := by
    rw [lt_iff finite dial.isFinite_min]
    exact least.not_gt
  have high : ¬ dial.max < x := by
    rw [lt_iff dial.isFinite_max finite]
    exact greatest.not_gt
  simp only [clamp, Number.clamp, if_neg low, if_neg high]

/-- What the dial does not accept is brought to the end of the range that it crossed. -/
theorem clamp_of_refused
    {dial : Dial}
    {x : Float}
    (finite : x.isFinite = true)
    (refused : dial.accepts x = false)
    (direction : Direction) :
    dial.clamp x = RangeNotice.limit ⟨direction, dial, .crossed dial x⟩ ∧
      (dial.clamp x != x) = true := by
  have ends : ¬ dial.max < dial.min := by
    cases dial <;> decide +kernel
  unfold RangeNotice.limit Bound.crossed clamp Number.clamp
  by_cases low : x < dial.min
  · simp only [finite, low, decide_true, Bool.and_self, if_true, if_neg ends, true_and]
    rw [lt_iff finite dial.isFinite_min] at low
    exact (bne_iff dial.isFinite_min finite).mpr low.ne'
  · have high : dial.max < x := by
      rw [lt_iff finite dial.isFinite_min, not_lt] at low
      rw [lt_iff dial.isFinite_max finite]
      by_contra notAbove
      rw [(accepts_iff _ _).mpr ⟨finite, low, not_lt.mp notAbove⟩] at refused
      exact absurd refused (by decide)
    simp only [low, high, decide_false, Bool.and_false, if_true, Bool.false_eq_true, if_false,
      true_and]
    rw [lt_iff dial.isFinite_max finite] at high
    exact (bne_iff dial.isFinite_max finite).mpr high.ne

theorem accepts_clamp {dial : Dial} {x : Float} (finite : x.isFinite = true) :
    dial.accepts (dial.clamp x) = true := by
  rcases dial.clamp_cases finite with least | greatest | ⟨kept, accepted⟩
  · rw [least]
    cases dial <;> decide +kernel
  · rw [greatest]
    exact dial.onScale_max.1
  · rwa [kept]

end Dial
end NetworkConsole
