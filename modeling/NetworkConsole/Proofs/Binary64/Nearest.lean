import Mathlib.Algebra.Order.Field.Power
import Mathlib.Data.Int.Log
import Mathlib.Data.Rat.Floor
import Mathlib.Tactic.FieldSimp
import Mathlib.Tactic.Linarith
import Mathlib.Tactic.Positivity
import Mathlib.Tactic.Ring

/-!
# Rounding of rational numbers to 53 binary digits

The result of an operation on floats is the exact rational result, rounded to the
nearest multiple of its last binary place, a tie to the even multiple. The last place
follows from the size of the number and never lies below `2 ^ -1074`.

No number is too large here: overflow is a matter of packing a rounded number.
-/

namespace NetworkConsole
namespace Binary64

/-- The whole number nearest to a rational number, a tie to the even one. -/
def nearestWhole (q : ℚ) : ℤ :=
  if Int.fract q < 1 / 2 then ⌊q⌋
  else if 1 / 2 < Int.fract q then ⌊q⌋ + 1
  else ⌊q⌋ + ⌊q⌋ % 2

theorem nearestWhole_of_lt {q : ℚ} (below : Int.fract q < 1 / 2) : nearestWhole q = ⌊q⌋ :=
  if_pos below

theorem nearestWhole_of_gt {q : ℚ} (above : 1 / 2 < Int.fract q) :
    nearestWhole q = ⌊q⌋ + 1 := by
  rw [nearestWhole, if_neg above.not_gt, if_pos above]

theorem nearestWhole_of_eq {q : ℚ} (tie : Int.fract q = 1 / 2) :
    nearestWhole q = ⌊q⌋ + ⌊q⌋ % 2 := by
  rw [nearestWhole, if_neg tie.not_lt, if_neg tie.not_gt]

@[simp] theorem nearestWhole_intCast (n : ℤ) : nearestWhole (n : ℚ) = n := by
  simp [nearestWhole]

theorem floor_le_nearestWhole (q : ℚ) : ⌊q⌋ ≤ nearestWhole q := by
  unfold nearestWhole
  split_ifs <;> omega

theorem nearestWhole_le_floor_add_one (q : ℚ) : nearestWhole q ≤ ⌊q⌋ + 1 := by
  unfold nearestWhole
  split_ifs <;> omega

/-- Rounding to whole numbers keeps the order. -/
theorem nearestWhole_mono {p q : ℚ} (ordered : p ≤ q) : nearestWhole p ≤ nearestWhole q := by
  rcases (Int.floor_le_floor ordered).lt_or_eq with below | same
  · calc nearestWhole p ≤ ⌊p⌋ + 1 := nearestWhole_le_floor_add_one p
      _ ≤ ⌊q⌋ := below
      _ ≤ nearestWhole q := floor_le_nearestWhole q
  · have fractions : Int.fract p ≤ Int.fract q := by
      unfold Int.fract
      rw [same]
      linarith
    rcases lt_trichotomy (Int.fract q) (1 / 2) with low | tie | high
    · rw [nearestWhole_of_lt low, nearestWhole_of_lt (fractions.trans_lt low), same]
    · rcases (fractions.trans_eq tie).lt_or_eq with lower | equal
      · rw [nearestWhole_of_lt lower, same]
        exact floor_le_nearestWhole q
      · rw [nearestWhole_of_eq tie, nearestWhole_of_eq equal, same]
    · rw [nearestWhole_of_gt high, ← same]
      exact nearestWhole_le_floor_add_one p

/-- Rounding to whole numbers is symmetric. -/
theorem nearestWhole_neg (q : ℚ) : nearestWhole (-q) = -nearestWhole q := by
  by_cases whole : Int.fract q = 0
  · obtain ⟨n, rfl⟩ := Int.fract_eq_zero_iff.mp whole
    rw [← Int.cast_neg, nearestWhole_intCast, nearestWhole_intCast]
  · have fraction : Int.fract (-q) = 1 - Int.fract q := Int.fract_neg whole
    have floor : ⌊-q⌋ = -⌊q⌋ - 1 := by
      have negative := Int.floor_add_fract (-q)
      have positive := Int.floor_add_fract q
      rw [fraction] at negative
      have cast : (⌊-q⌋ : ℚ) = ((-⌊q⌋ - 1 : ℤ) : ℚ) := by
        push_cast
        linarith
      exact_mod_cast cast
    rcases lt_trichotomy (Int.fract q) (1 / 2) with low | tie | high
    · rw [nearestWhole_of_lt low, nearestWhole_of_gt (by linarith), floor]
      ring
    · rw [nearestWhole_of_eq tie, nearestWhole_of_eq (by linarith), floor]
      omega
    · rw [nearestWhole_of_gt high, nearestWhole_of_lt (by linarith), floor]
      ring

/-- The exponent of the last binary place that a float of this size has. -/
def lastPlace (q : ℚ) : ℤ := max (Int.log 2 |q| - 52) (-1074)

theorem lastPlace_neg (q : ℚ) : lastPlace (-q) = lastPlace q := by
  simp [lastPlace]

theorem lastPlace_mono {p q : ℚ} (positive : 0 < p) (ordered : p ≤ q) :
    lastPlace p ≤ lastPlace q := by
  have sizes : Int.log 2 |p| ≤ Int.log 2 |q| := by
    rw [abs_of_pos positive, abs_of_pos (positive.trans_le ordered)]
    exact Int.log_mono_right positive ordered
  unfold lastPlace
  omega

/-- The number that a rational number is rounded to. -/
def nearest (q : ℚ) : ℚ := nearestWhole (q / 2 ^ lastPlace q) * 2 ^ lastPlace q

theorem nearest_neg (q : ℚ) : nearest (-q) = -nearest q := by
  simp [nearest, lastPlace_neg, neg_div, nearestWhole_neg]

@[simp] theorem nearest_zero : nearest 0 = 0 := by
  have := nearestWhole_intCast 0
  simp_all [nearest]

/-- A whole multiple of a power of two that is not below the last place is kept. -/
theorem nearest_of_multiple
    {q : ℚ}
    {count place : ℤ}
    (covered : lastPlace q ≤ place)
    (multiple : q = count * 2 ^ place) :
    nearest q = q := by
  have scaled : q / 2 ^ lastPlace q = ((count * 2 ^ (place - lastPlace q).toNat : ℤ) : ℚ) := by
    have exponent : ((place - lastPlace q).toNat : ℤ) + lastPlace q = place := by omega
    rw [div_eq_iff (zpow_ne_zero _ two_ne_zero)]
    push_cast
    rw [← zpow_natCast, mul_assoc, ← zpow_add₀ two_ne_zero, exponent]
    exact multiple
  unfold nearest
  rw [scaled, nearestWhole_intCast, ← scaled]
  field_simp

/-- Numbers with a significand of at most 53 binary digits. -/
def Representable (q : ℚ) : Prop :=
  ∃ significand exponent : ℤ,
    |significand| < 2 ^ 53 ∧ -1074 ≤ exponent ∧ q = significand * 2 ^ exponent

/-- The size of a number bounds its last place. -/
theorem lastPlace_le
    {q : ℚ}
    {place : ℤ}
    (nonzero : q ≠ 0)
    (small : |q| < 2 ^ (place + 53))
    (least : -1074 ≤ place) :
    lastPlace q ≤ place := by
  have size : Int.log 2 |q| < place + 53 :=
    (Int.lt_zpow_iff_log_lt (by norm_num) (abs_pos.mpr nonzero)).mp (by exact_mod_cast small)
  unfold lastPlace
  omega

/-- Rounding keeps a representable number. -/
theorem Representable.nearest_eq {q : ℚ} (representable : Representable q) : nearest q = q := by
  obtain ⟨significand, exponent, bounded, least, rfl⟩ := representable
  by_cases zero : significand = 0
  · simp [zero]
  · have nonzero : (significand : ℚ) * 2 ^ exponent ≠ 0 := by
      have : (significand : ℚ) ≠ 0 := by exact_mod_cast zero
      positivity
    have small : |(significand : ℚ) * 2 ^ exponent| < 2 ^ (exponent + 53) := by
      have bound : |(significand : ℚ)| < 2 ^ 53 := by exact_mod_cast bounded
      rw [abs_mul, abs_of_pos (by positivity : (0 : ℚ) < 2 ^ exponent),
        zpow_add₀ two_ne_zero, mul_comm]
      exact mul_lt_mul_of_pos_left bound (by positivity)
    exact nearest_of_multiple (lastPlace_le nonzero small least) rfl

theorem representable_two_zpow (exponent : ℤ) (least : -1074 ≤ exponent) :
    Representable (2 ^ exponent) :=
  ⟨1, exponent, by norm_num, least, by simp⟩

theorem nearest_nonneg {q : ℚ} (nonneg : 0 ≤ q) : 0 ≤ nearest q := by
  have whole : 0 ≤ nearestWhole (q / 2 ^ lastPlace q) := by
    have := nearestWhole_mono (div_nonneg nonneg (by positivity : (0 : ℚ) ≤ 2 ^ lastPlace q))
    simpa [nearestWhole] using this
  have : (0 : ℚ) ≤ nearestWhole (q / 2 ^ lastPlace q) := by exact_mod_cast whole
  unfold nearest
  positivity

/-- Rounding keeps the order of numbers with the same last place. -/
theorem nearest_mono_of_lastPlace_eq
    {p q : ℚ}
    (ordered : p ≤ q)
    (same : lastPlace p = lastPlace q) :
    nearest p ≤ nearest q := by
  unfold nearest
  rw [same]
  have scaled : p / 2 ^ lastPlace q ≤ q / 2 ^ lastPlace q :=
    div_le_div_of_nonneg_right ordered (by positivity)
  have whole : (nearestWhole (p / 2 ^ lastPlace q) : ℚ) ≤ nearestWhole (q / 2 ^ lastPlace q) := by
    exact_mod_cast nearestWhole_mono scaled
  exact mul_le_mul_of_nonneg_right whole (by positivity)

/-- A positive number is rounded to at most the next power of two. -/
theorem nearest_le_two_zpow {p : ℚ} (positive : 0 < p) :
    nearest p ≤ 2 ^ (lastPlace p + 53) := by
  have below : p < 2 ^ (lastPlace p + 53) := by
    calc p < ((2 : ℕ) : ℚ) ^ (Int.log 2 p + 1) := Int.lt_zpow_succ_log_self (by norm_num) p
      _ ≤ 2 ^ (lastPlace p + 53) := by
        apply zpow_le_zpow_right₀ (by norm_num)
        unfold lastPlace
        rw [abs_of_pos positive]
        omega
  have scaled : p / 2 ^ lastPlace p ≤ ((2 ^ 53 : ℤ) : ℚ) := by
    rw [div_le_iff₀ (by positivity)]
    rw [add_comm, zpow_add₀ two_ne_zero] at below
    exact_mod_cast below.le
  have whole := nearestWhole_mono scaled
  rw [nearestWhole_intCast] at whole
  have cast : (nearestWhole (p / 2 ^ lastPlace p) : ℚ) ≤ 2 ^ 53 := by exact_mod_cast whole
  unfold nearest
  rw [add_comm, zpow_add₀ two_ne_zero]
  exact mul_le_mul_of_nonneg_right (by exact_mod_cast cast) (by positivity)

/-- A number above the subnormal ones is rounded to at least the power of two below it. -/
theorem two_zpow_le_nearest
    {q : ℚ}
    (positive : 0 < q)
    (normal : -1074 < lastPlace q) :
    2 ^ (lastPlace q + 52) ≤ nearest q := by
  have size : lastPlace q + 52 = Int.log 2 q := by
    unfold lastPlace at normal ⊢
    rw [abs_of_pos positive] at normal ⊢
    omega
  have above : (2 : ℚ) ^ (lastPlace q + 52) ≤ q := by
    rw [size]
    exact_mod_cast Int.zpow_log_le_self (by norm_num : 1 < 2) positive
  have scaled : ((2 ^ 52 : ℤ) : ℚ) ≤ q / 2 ^ lastPlace q := by
    rw [le_div_iff₀ (by positivity)]
    rw [add_comm, zpow_add₀ two_ne_zero] at above
    exact_mod_cast above
  have whole := nearestWhole_mono scaled
  rw [nearestWhole_intCast] at whole
  have cast : (2 : ℚ) ^ 52 ≤ nearestWhole (q / 2 ^ lastPlace q) := by exact_mod_cast whole
  unfold nearest
  rw [add_comm, zpow_add₀ two_ne_zero]
  exact mul_le_mul_of_nonneg_right (by exact_mod_cast cast) (by positivity)

/-- The number of last places in a rounded number has 53 binary digits, or the last place
is the least one. -/
theorem count_bounds
    {q : ℚ}
    {count : ℕ}
    (positive : 0 < q)
    (exact : (count : ℚ) * 2 ^ lastPlace q = nearest q) :
    count ≤ 2 ^ 53 ∧ (2 ^ 52 ≤ count ∨ lastPlace q = -1074) := by
  have scale : (0 : ℚ) < 2 ^ lastPlace q := by positivity
  constructor
  · have upper := nearest_le_two_zpow positive
    rw [← exact, add_comm, zpow_add₀ two_ne_zero] at upper
    exact_mod_cast le_of_mul_le_mul_right upper scale
  · by_cases subnormal : lastPlace q = -1074
    · exact .inr subnormal
    · have least : -1074 ≤ lastPlace q := le_max_right _ _
      have lower := two_zpow_le_nearest positive (by omega)
      rw [← exact, add_comm, zpow_add₀ two_ne_zero] at lower
      exact .inl (by exact_mod_cast le_of_mul_le_mul_right lower scale)

theorem nearest_mono_of_pos {p q : ℚ} (positive : 0 < p) (ordered : p ≤ q) :
    nearest p ≤ nearest q := by
  rcases (lastPlace_mono positive ordered).lt_or_eq with below | same
  · have least : -1074 ≤ lastPlace p := le_max_right _ _
    calc nearest p ≤ 2 ^ (lastPlace p + 53) := nearest_le_two_zpow positive
      _ ≤ 2 ^ (lastPlace q + 52) := zpow_le_zpow_right₀ (by norm_num) (by omega)
      _ ≤ nearest q := two_zpow_le_nearest (positive.trans_le ordered) (by omega)
  · exact nearest_mono_of_lastPlace_eq ordered same

/-- Rounding keeps the order. -/
theorem nearest_mono {p q : ℚ} (ordered : p ≤ q) : nearest p ≤ nearest q := by
  rcases lt_or_ge 0 p with positive | nonpos
  · exact nearest_mono_of_pos positive ordered
  · rcases lt_or_ge q 0 with negative | nonneg
    · have mirrored := nearest_mono_of_pos (neg_pos.mpr negative) (neg_le_neg ordered)
      rw [nearest_neg, nearest_neg] at mirrored
      exact neg_le_neg_iff.mp mirrored
    · have left := nearest_nonneg (neg_nonneg.mpr nonpos)
      rw [nearest_neg] at left
      exact (neg_nonneg.mp left).trans (nearest_nonneg nonneg)

/-- Rounding does not pass a representable bound. -/
theorem nearest_le {q bound : ℚ} (representable : Representable bound) (below : q ≤ bound) :
    nearest q ≤ bound :=
  (nearest_mono below).trans_eq representable.nearest_eq

theorem le_nearest {q bound : ℚ} (representable : Representable bound) (above : bound ≤ q) :
    bound ≤ nearest q :=
  representable.nearest_eq.symm.trans_le (nearest_mono above)

theorem abs_nearest_le {q bound : ℚ} (representable : Representable bound) (below : |q| ≤ bound) :
    |nearest q| ≤ bound := by
  obtain ⟨low, high⟩ := abs_le.mp below
  have mirrored := nearest_le representable (neg_le.mp low)
  rw [nearest_neg] at mirrored
  exact abs_le.mpr ⟨neg_le.mp mirrored, nearest_le representable high⟩

/-! ## Losses -/

/-- A large representable number is even, and a fraction beside it is lost. -/
theorem Representable.nearest_add_fraction
    {q fraction : ℚ}
    (representable : Representable q)
    (large : 2 ^ 53 ≤ q)
    (nonneg : 0 ≤ fraction)
    (small : fraction < 1) :
    nearest (q + fraction) = q := by
  have positive : 0 < q := lt_of_lt_of_le (by norm_num) large
  have size : 53 ≤ Int.log 2 |q| := by
    rw [abs_of_pos positive, ← Int.zpow_le_iff_le_log (by norm_num) positive]
    exact_mod_cast large
  have place : 1 ≤ lastPlace q := by
    unfold lastPlace
    omega
  have scale : (0 : ℚ) < 2 ^ lastPlace q := by positivity
  have two : (2 : ℚ) ≤ 2 ^ lastPlace q := by
    simpa using zpow_le_zpow_right₀ (by norm_num : (1 : ℚ) ≤ 2) place
  -- The number is a whole count of its last places, and the next count is not reached.
  generalize count_eq : nearestWhole (q / 2 ^ lastPlace q) = count
  have exact : q = count * 2 ^ lastPlace q := by
    rw [← count_eq]
    exact representable.nearest_eq.symm
  have below : count < 2 ^ 53 := by
    have bound : q < 2 ^ (lastPlace q + 53) := by
      calc q < ((2 : ℕ) : ℚ) ^ (Int.log 2 q + 1) := Int.lt_zpow_succ_log_self (by norm_num) q
        _ ≤ 2 ^ (lastPlace q + 53) := by
          apply zpow_le_zpow_right₀ (by norm_num)
          unfold lastPlace
          rw [abs_of_pos positive]
          omega
    rw [add_comm, zpow_add₀ two_ne_zero] at bound
    exact_mod_cast lt_of_mul_lt_mul_right (exact.symm.trans_lt bound) scale.le
  have same : lastPlace (q + fraction) = lastPlace q := by
    apply le_antisymm
    · apply lastPlace_le (by linarith) _ (by omega)
      have next : (count : ℚ) + 1 ≤ 2 ^ 53 := by exact_mod_cast below
      have reached := mul_le_mul_of_nonneg_right next scale.le
      rw [abs_of_nonneg (by linarith), add_comm (lastPlace q), zpow_add₀ two_ne_zero]
      refine lt_of_lt_of_le ?_ reached
      linarith
    · exact lastPlace_mono positive (by linarith)
  have scaled : (q + fraction) / 2 ^ lastPlace q = count + fraction / 2 ^ lastPlace q := by
    rw [add_div, div_eq_iff scale.ne' |>.mpr exact]
  have low : fraction / 2 ^ lastPlace q < 1 / 2 := by
    rw [div_lt_iff₀ scale]
    linarith
  have lowNonneg : 0 ≤ fraction / 2 ^ lastPlace q := by positivity
  have floor : ⌊(count : ℚ) + fraction / 2 ^ lastPlace q⌋ = count := by
    rw [Int.floor_eq_iff]
    constructor <;> linarith
  rw [nearest, same, scaled, nearestWhole_of_lt (by rw [Int.fract, floor]; linarith), floor]
  exact exact.symm

/-- A number is rounded up by less than any place that it has room for. -/
theorem nearest_sub_lt
    {q : ℚ}
    {digits : ℕ}
    (few : digits ≤ 1074)
    (small : |q| * 2 ^ digits < 2 ^ 52) :
    nearest q - q < (2 ^ digits)⁻¹ := by
  have scale : (0 : ℚ) < 2 ^ digits := by positivity
  rw [← abs_of_pos scale, ← abs_mul] at small
  obtain ⟨above, below⟩ := abs_lt.mp small
  have reached := Int.le_ceil (q * 2 ^ digits)
  have passed := Int.ceil_lt_add_one (q * 2 ^ digits)
  have ceilAbove : -2 ^ 52 < ⌈q * 2 ^ digits⌉ := by exact_mod_cast above.trans_le reached
  have ceilBelow : ⌈q * 2 ^ digits⌉ < 2 ^ 52 + 1 := by
    exact_mod_cast passed.trans (by linarith : q * 2 ^ digits + 1 < 2 ^ 52 + 1)
  have representable : Representable (⌈q * 2 ^ digits⌉ * (2 ^ digits)⁻¹) := by
    refine ⟨⌈q * 2 ^ digits⌉, -digits, abs_lt.mpr (by omega), by omega, ?_⟩
    rw [zpow_neg, zpow_natCast]
  calc nearest q - q
      ≤ ⌈q * 2 ^ digits⌉ * (2 ^ digits)⁻¹ - q :=
        sub_le_sub_right (nearest_le representable ((le_mul_inv_iff₀ scale).mpr reached)) q
    _ = (⌈q * 2 ^ digits⌉ - q * 2 ^ digits) * (2 ^ digits)⁻¹ := by
        rw [sub_mul, mul_inv_cancel_right₀ scale.ne']
    _ < 1 * (2 ^ digits)⁻¹ := mul_lt_mul_of_pos_right (by linarith) (inv_pos.mpr scale)
    _ = (2 ^ digits)⁻¹ := one_mul _

/-- A number is rounded by less than any place that it has room for. -/
theorem abs_nearest_sub_lt
    {q : ℚ}
    {digits : ℕ}
    (few : digits ≤ 1074)
    (small : |q| * 2 ^ digits < 2 ^ 52) :
    |nearest q - q| < (2 ^ digits)⁻¹ := by
  have up := nearest_sub_lt few small
  have down := nearest_sub_lt few ((abs_neg q).symm ▸ small)
  rw [nearest_neg] at down
  exact abs_lt.mpr ⟨by linarith, up⟩

end Binary64
end NetworkConsole
