import NetworkConsole.Proofs.Binary64.Value

/-!
# Where floats overflow

A number is rounded to an infinity from the middle between the largest float and the next
power of two on: the largest float has an odd significand, so the tie is rounded up too.
-/

namespace NetworkConsole
namespace Binary64

/-- The least number that is rounded to a size that is too large for a float. -/
def overflowFrom : ℚ := 2 ^ (1024 : ℤ) - 2 ^ (970 : ℤ)

/-- The last place of the largest floats. -/
private theorem lastPlace_of_largest
    {q : ℚ}
    (large : 2 ^ (1023 : ℤ) ≤ q)
    (small : q < overflow) :
    lastPlace q = 971 := by
  have positive : 0 < q := (by positivity : (0 : ℚ) < 2 ^ (1023 : ℤ)).trans_le large
  apply le_antisymm
  · exact lastPlace_le positive.ne' (by rw [abs_of_pos positive]; exact small) (by norm_num)
  · have size : 1023 ≤ Int.log 2 |q| := by
      rw [abs_of_pos positive]
      exact (Int.zpow_le_iff_le_log (by norm_num) positive).mp (by exact_mod_cast large)
    unfold lastPlace
    omega

/-- In places of the largest floats, the middle is half a place below the power of two. -/
private theorem overflowFrom_eq : overflowFrom = (2 ^ 53 - 1 / 2) * 2 ^ (971 : ℤ) := by
  have upper : (2 : ℚ) ^ (1024 : ℤ) = 2 ^ 53 * 2 ^ (971 : ℤ) := by
    rw [← zpow_natCast, ← zpow_add₀ two_ne_zero]
    norm_num
  have half : (2 : ℚ) ^ (971 : ℤ) = 2 ^ (970 : ℤ) * 2 := zpow_add_one₀ two_ne_zero 970
  rw [overflowFrom, upper, half]
  ring

theorem overflowFrom_lt_overflow : overflowFrom < overflow :=
  sub_lt_self _ (by positivity)

theorem two_zpow_le_overflowFrom : 2 ^ (1023 : ℤ) ≤ overflowFrom := by
  have double : (2 : ℚ) ^ (1024 : ℤ) = 2 ^ (1023 : ℤ) + 2 ^ (1023 : ℤ) := by
    rw [← mul_two]
    exact zpow_add_one₀ two_ne_zero 1023
  have below : (2 : ℚ) ^ (970 : ℤ) ≤ 2 ^ (1023 : ℤ) :=
    zpow_le_zpow_right₀ (by norm_num) (by norm_num)
  rw [overflowFrom, double, le_sub_iff_add_le]
  exact add_le_add_right below _

/-- The middle itself is rounded up. -/
theorem nearest_overflowFrom : nearest overflowFrom = overflow := by
  have place := lastPlace_of_largest two_zpow_le_overflowFrom overflowFrom_lt_overflow
  have scale : (2 : ℚ) ^ (971 : ℤ) ≠ 0 := by positivity
  have scaled : overflowFrom / 2 ^ (971 : ℤ) = 2 ^ 53 - 1 / 2 := by
    rw [overflowFrom_eq, mul_div_cancel_right₀ _ scale]
  have floor : ⌊(2 ^ 53 - 1 / 2 : ℚ)⌋ = 2 ^ 53 - 1 := by
    rw [Int.floor_eq_iff]
    norm_num
  have tie : Int.fract (2 ^ 53 - 1 / 2 : ℚ) = 1 / 2 := by
    rw [Int.fract, floor]
    norm_num
  have whole : nearestWhole (2 ^ 53 - 1 / 2) = 2 ^ 53 := by
    rw [nearestWhole_of_eq tie, floor]
    norm_num
  rw [nearest, place, scaled, whole, overflow, Int.cast_pow, Int.cast_ofNat, ← zpow_natCast,
    ← zpow_add₀ two_ne_zero]
  norm_num

/-- A number below the middle is rounded to the largest float at most. -/
theorem nearest_lt_overflow {q : ℚ} (small : q < overflowFrom) : nearest q < overflow := by
  have scale : (0 : ℚ) < 2 ^ (971 : ℤ) := by positivity
  have largest : ((2 ^ 53 - 1 : ℤ) : ℚ) * 2 ^ (971 : ℤ) < overflow := by
    have upper : overflow = 2 ^ 53 * 2 ^ (971 : ℤ) := by
      rw [overflow, ← zpow_natCast, ← zpow_add₀ two_ne_zero]
      norm_num
    rw [upper]
    exact mul_lt_mul_of_pos_right (by norm_num) scale
  have representable : Representable (((2 ^ 53 - 1 : ℤ) : ℚ) * 2 ^ (971 : ℤ)) :=
    ⟨2 ^ 53 - 1, 971, by norm_num, by norm_num, rfl⟩
  rcases le_or_gt q (((2 ^ 53 - 1 : ℤ) : ℚ) * 2 ^ (971 : ℤ)) with below | above
  · exact (nearest_le representable below).trans_lt largest
  · have large : 2 ^ (1023 : ℤ) ≤ q := by
      have split : (2 : ℚ) ^ (1023 : ℤ) = 2 ^ 52 * 2 ^ (971 : ℤ) := by
        rw [← zpow_natCast, ← zpow_add₀ two_ne_zero]
        norm_num
      rw [split]
      exact (mul_le_mul_of_nonneg_right (by norm_num) scale.le).trans above.le
    have place := lastPlace_of_largest large (small.trans overflowFrom_lt_overflow)
    rw [overflowFrom_eq, ← div_lt_iff₀ scale] at small
    rw [← lt_div_iff₀ scale] at above
    rw [nearest, place]
    generalize q / 2 ^ (971 : ℤ) = places at small above
    have floor : ⌊places⌋ = 2 ^ 53 - 1 := by
      rw [Int.floor_eq_iff]
      push_cast at above ⊢
      constructor <;> linarith
    have low : Int.fract places < 1 / 2 := by
      rw [Int.fract, floor]
      push_cast
      linarith
    rw [nearestWhole_of_lt low, floor]
    exact largest

theorem abs_nearest (q : ℚ) : |nearest q| = nearest |q| := by
  rcases le_total 0 q with nonneg | nonpos
  · rw [abs_of_nonneg nonneg, abs_of_nonneg (nearest_nonneg nonneg)]
  · have mirrored := nearest_nonneg (neg_nonneg.mpr nonpos)
    rw [nearest_neg, neg_nonneg] at mirrored
    rw [abs_of_nonpos nonpos, abs_of_nonpos mirrored, nearest_neg]

/-- Exactly the numbers from the middle on are too large once they are rounded. -/
theorem abs_nearest_lt_overflow_iff (q : ℚ) : |nearest q| < overflow ↔ |q| < overflowFrom := by
  rw [abs_nearest]
  constructor
  · intro small
    by_contra large
    have rounded := nearest_mono (not_lt.mp large)
    rw [nearest_overflowFrom] at rounded
    exact small.not_ge rounded
  · exact nearest_lt_overflow

/-- A product is finite exactly if its factors are and the exact product is not too large. -/
theorem isFinite_mul_iff {x y : Float} :
    (x * y).isFinite = true ↔
      x.isFinite = true ∧ y.isFinite = true ∧ |value x * value y| < overflowFrom := by
  constructor
  · intro finite
    obtain ⟨left, right⟩ := isFinite_of_mul finite
    refine ⟨left, right, ?_⟩
    rw [← abs_nearest_lt_overflow_iff]
    exact (mul_roundsTo left right).isFinite_iff.mp finite
  · rintro ⟨left, right, small⟩
    rw [(mul_roundsTo left right).isFinite_iff, abs_nearest_lt_overflow_iff]
    exact small

end Binary64
end NetworkConsole
