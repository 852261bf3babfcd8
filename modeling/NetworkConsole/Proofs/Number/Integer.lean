import NetworkConsole.Proofs.Number.Rounding

/-!
# Floats to integers

The conversion to integers takes the whole part of a number, which a rounded number is
itself.
-/

namespace NetworkConsole
namespace Number

open Binary64

/-- The whole part of a number, toward zero. -/
def wholeOf (q : ℚ) : ℤ := if q < 0 then -⌊-q⌋ else ⌊q⌋

theorem wholeOf_intCast (n : ℤ) : wholeOf n = n := by
  unfold wholeOf
  split_ifs
  · rw [← Int.cast_neg, Int.floor_intCast, neg_neg]
  · exact Int.floor_intCast n

/-- The conversion takes the whole part of what is in range. -/
theorem toInt_eq
    {x : Float}
    (finite : x.isFinite = true)
    (small : |value x| < 2 ^ 63) :
    toInt x = wholeOf (value x) := by
  obtain ⟨absFinite, exact⟩ := abs_value finite
  have magnitude := toUInt64_toNat absFinite (by rw [exact]; positivity)
    (by rw [exact]; exact small.trans (by norm_num))
  rw [exact] at magnitude
  have bounded : ⌊|value x|⌋ < 2 ^ 63 := Int.floor_lt.mpr (by exact_mod_cast small)
  have limit : Nat.pow 2 63 = 9223372036854775808 := rfl
  unfold toInt wholeOf
  rw [limit]
  rcases lt_trichotomy (value x) 0 with negative | zero | positive
  · rw [abs_of_neg negative] at magnitude bounded
    rw [if_pos ((isNegative_iff finite negative.ne).mpr negative), if_pos negative]
    omega
  · have same := toUInt64_toNat finite zero.ge (by rw [zero]; norm_num)
    rw [zero, abs_zero, Int.floor_zero] at magnitude
    rw [zero, Int.floor_zero] at same
    rw [zero, if_neg (lt_irrefl _), Int.floor_zero]
    split_ifs <;> omega
  · have same := toUInt64_toNat finite positive.le
      ((le_abs_self _).trans_lt (small.trans (by norm_num)))
    rw [abs_of_pos positive] at bounded
    rw [if_neg (mt (isNegative_iff finite positive.ne').mp positive.not_gt), if_neg positive.not_gt]
    omega

/-- A rounded number is converted to the nearest whole number. -/
theorem toInt_round
    {x : Float}
    (finite : x.isFinite = true)
    (small : |value x| < 2 ^ 53) :
    toInt (round x) = nearestAwayOf (value x) := by
  obtain ⟨roundFinite, exact⟩ := round_eq finite
  have bounded : |value (round x)| < 2 ^ 63 := by
    rw [exact]
    linarith [abs_nearestAwayOf_le (value x)]
  rw [toInt_eq roundFinite bounded, exact, wholeOf_intCast]

end Number
end NetworkConsole
