import Mathlib.Data.Nat.Cast.Order.Field
import NetworkConsole.Proofs.Dial.Scale
import NetworkConsole.Proofs.Number.Whole

/-!
# The rate that a panel asks for

The target rate of a panel is computed in floats. On a panel that is on its scale the bits
to be sent are exact, and the quotient by the duration is never rounded up to the next
whole number, so the argument of the test client has the digits of whole numbers only.
-/

namespace NetworkConsole

open Binary64

namespace Number

/-! ## Whole operands -/

/-- A product of whole numbers below `2 ^ 53` is exact. -/
theorem ofNat_mul_ofNat
    {m n : ℕ}
    (leftPositive : 0 < m)
    (rightPositive : 0 < n)
    (bounded : m * n < 2 ^ 53) :
    Float.ofNat m * Float.ofNat n = Float.ofNat (m * n) := by
  have left : m < 2 ^ 53 := (Nat.le_mul_of_pos_right m rightPositive).trans_lt bounded
  have right : n < 2 ^ 53 := (Nat.le_mul_of_pos_left n leftPositive).trans_lt bounded
  have product := mul_roundsTo (isFinite_ofNat left) (isFinite_ofNat right)
  rw [value_ofNat left, value_ofNat right, ← Nat.cast_mul] at product
  obtain ⟨finite, exact⟩ := product.value_eq_natCast bounded.le
  apply eq_of_value_eq finite (isFinite_ofNat bounded)
  · rw [exact]
    positivity
  · rw [exact, value_ofNat bounded]

/-- Truncation of a positive number gives its whole part. -/
theorem truncate_value_of_pos
    {x : Float}
    (finite : x.isFinite = true)
    (positive : 0 < value x) :
    value (truncate x) = ⌊value x⌋ := by
  rw [truncate_eq finite, towardZero, if_neg positive.not_gt]

/-- A quotient of whole numbers lies below the next whole number by at least the reciprocal of
the divisor, which is more than it is rounded by. -/
theorem floor_nearest_div
    {dividend divisor : ℕ}
    (positive : 0 < divisor)
    (small : divisor ≤ 2 ^ 10)
    (bounded : dividend < 2 ^ 42) :
    ⌊nearest (dividend / divisor)⌋ = (dividend / divisor : ℕ) := by
  have size : (0 : ℚ) < divisor := by exact_mod_cast positive
  set quotient := dividend / divisor with quotientDef
  have quotientBounded : quotient < 2 ^ 42 := (Nat.div_le_self _ _).trans_lt bounded
  have lower : (quotient : ℚ) ≤ dividend / divisor := Nat.cast_div_le
  have next : (dividend + 1 : ℚ) ≤ (quotient + 1) * divisor := by
    have step := Nat.lt_mul_div_succ dividend positive
    rw [mul_comm] at step
    exact_mod_cast step
  have reciprocal : (1 / 2 ^ 10 : ℚ) ≤ 1 / divisor :=
    one_div_le_one_div_of_le size (by exact_mod_cast small)
  have upper : (dividend / divisor : ℚ) ≤ quotient + 1 - 1 / divisor := by
    rw [le_sub_iff_add_le, ← add_div, div_le_iff₀ size]
    exact next
  have representable : Representable (quotient + 1 - 1 / 2 ^ 10) := by
    refine ⟨(quotient + 1) * 2 ^ 10 - 1, -10, ?_, by norm_num, ?_⟩
    · have whole : (quotient : ℤ) < 2 ^ 42 := by exact_mod_cast quotientBounded
      rw [abs_of_nonneg (by linarith [quotient.cast_nonneg (α := ℤ)])]
      linarith
    · push_cast
      norm_num
      ring
  have atLeast := le_nearest (representable_natCast (quotientBounded.le.trans (by norm_num))) lower
  have atMost := nearest_le representable (upper.trans (by linarith))
  rw [Int.floor_eq_iff]
  push_cast
  constructor <;> linarith

/-- The truncated quotient of whole numbers is their whole quotient. -/
theorem truncate_ofNat_div_ofNat
    {dividend divisor : ℕ}
    (positive : 0 < divisor)
    (small : divisor ≤ 2 ^ 10)
    (least : divisor ≤ dividend)
    (bounded : dividend < 2 ^ 42) :
    truncate (Float.ofNat dividend / Float.ofNat divisor) = Float.ofNat (dividend / divisor) := by
  have dividendBounded : dividend < 2 ^ 53 := bounded.trans (by norm_num)
  have divisorBounded : divisor < 2 ^ 53 := small.trans_lt (by norm_num)
  have quotientBounded := (Nat.div_le_self dividend divisor).trans_lt dividendBounded
  have size : (0 : ℚ) < (dividend / divisor : ℕ) := by exact_mod_cast Nat.div_pos least positive
  have divisorSize : (1 : ℚ) ≤ divisor := by exact_mod_cast positive
  have rounds := div_roundsTo (isFinite_ofNat dividendBounded) (isFinite_ofNat divisorBounded)
    (by rw [value_ofNat divisorBounded]; linarith)
  rw [value_ofNat dividendBounded, value_ofNat divisorBounded] at rounds
  have finite := rounds.isFinite_of_le (representable_natCast dividendBounded.le)
    (natCast_lt_overflow dividendBounded.le) (by
      rw [abs_of_nonneg (by positivity)]
      exact div_le_self (by positivity) divisorSize)
  have floor := floor_nearest_div positive small bounded
  rw [← rounds.value_eq finite] at floor
  have quotientPositive : 0 < value (Float.ofNat dividend / Float.ofNat divisor) := by
    have below := Int.floor_le (value (Float.ofNat dividend / Float.ofNat divisor))
    rw [floor, Int.cast_natCast] at below
    exact size.trans_le below
  have whole := truncate_value_of_pos finite quotientPositive
  rw [floor, Int.cast_natCast] at whole
  apply eq_of_value_eq (truncate_value finite).1 (isFinite_ofNat quotientBounded)
  · rw [whole]
    exact size.ne'
  · rw [whole, value_ofNat quotientBounded]

end Number

namespace Dial

/-- The ends of the range of a whole dial. -/
def wholeRange : Dial → ℕ × ℕ
  | .seconds => (1, 10)
  | .size => (64, 1400)
  | .packets => (1, 187500000)
  | .bandwidth => (0, 150)

theorem value_max (dial : Dial) : value dial.max = dial.wholeRange.2 := by
  cases dial with
  | seconds => exact value_ofNat (n := 10) (by norm_num)
  | size => exact value_ofNat (n := 1400) (by norm_num)
  | packets => exact value_ofNat (n := 187500000) (by norm_num)
  | bandwidth => exact value_ofNat (n := 150) (by norm_num)

theorem value_min {dial : Dial} (whole : dial ≠ .bandwidth) :
    value dial.min = dial.wholeRange.1 := by
  cases dial with
  | seconds => exact value_ofNat (n := 1) (by norm_num)
  | size => exact value_ofNat (n := 64) (by norm_num)
  | packets => exact value_ofNat (n := 1) (by norm_num)
  | bandwidth => exact absurd rfl whole

/-- A whole dial on its scale shows a natural number in its range. -/
theorem OnScale.exists_nat
    {dial : Dial}
    {x : Float}
    (onScale : dial.OnScale x)
    (whole : dial ≠ .bandwidth) :
    ∃ n : ℕ, x = Float.ofNat n ∧ dial.wholeRange.1 ≤ n ∧ n ≤ dial.wholeRange.2 := by
  obtain ⟨accepted, shown⟩ := onScale
  obtain ⟨finite, least, greatest⟩ := (accepts_iff _ _).mp accepted
  obtain ⟨n, rfl⟩ : ∃ n : ℕ, x = Float.ofNat n := by
    cases dial with
    | bandwidth => exact absurd rfl whole
    | _ => exact shown
  have bounded : n < 2 ^ 53 := by
    by_contra large
    have size : ((2 ^ 53 : ℕ) : ℚ) ≤ n := by exact_mod_cast not_lt.mp large
    have above := le_nearest (representable_natCast le_rfl) size
    have below := greatest.trans dial.value_max_le
    rw [(roundsTo_ofNat n).value_eq finite] at below
    norm_num at above
    linarith
  rw [value_min whole, value_ofNat bounded, Nat.cast_le] at least
  rw [value_max, value_ofNat bounded, Nat.cast_le] at greatest
  exact ⟨n, rfl, least, greatest⟩

end Dial

namespace Panel

/-- The rate in bits per second that is sent, rounded down. -/
theorem truncate_targetBps
    {panel : Panel}
    {seconds size packets : ℕ}
    (secondsShown : panel.get .seconds = Float.ofNat seconds)
    (sizeShown : panel.get .size = Float.ofNat size)
    (packetsShown : panel.get .packets = Float.ofNat packets)
    (secondsRange : 1 ≤ seconds ∧ seconds ≤ 10)
    (sizeRange : 64 ≤ size ∧ size ≤ 1400)
    (packetsRange : 1 ≤ packets ∧ packets ≤ 187500000) :
    Number.truncate panel.targetBps = Float.ofNat (packets * size * 8 / seconds) ∧
      0 < packets * size * 8 / seconds ∧ packets * size * 8 / seconds < 2 ^ 53 := by
  have least : 1 * 64 ≤ packets * size := Nat.mul_le_mul packetsRange.1 sizeRange.1
  have greatest : packets * size ≤ 187500000 * 1400 := Nat.mul_le_mul packetsRange.2 sizeRange.2
  have bytes : Float.ofNat packets * Float.ofNat size = Float.ofNat (packets * size) :=
    Number.ofNat_mul_ofNat (by omega) (by omega) (by omega)
  have bits : Float.ofNat (packets * size) * Float.ofNat 8 = Float.ofNat (packets * size * 8) :=
    Number.ofNat_mul_ofNat (by omega) (by omega) (by omega)
  have rate : panel.targetBps = Float.ofNat (packets * size * 8) / Float.ofNat seconds := by
    change panel.get .packets * panel.get .size * Float.ofNat 8 / panel.get .seconds = _
    rw [packetsShown, sizeShown, secondsShown, bytes, bits]
  refine ⟨?_, Nat.div_pos (by omega) (by omega), (Nat.div_le_self _ _).trans_lt (by omega)⟩
  rw [rate]
  exact Number.truncate_ofNat_div_ofNat (by omega) (by omega) (by omega) (by omega)

/-- A panel on its scale is written with whole numbers. -/
theorem exists_testArgument_eq
    {panel : Panel}
    (onScale : ∀ dial : Dial, dial.OnScale (panel.get dial))
    (direction : Direction) :
    ∃ seconds size packets : ℕ,
      panel.get .seconds = Float.ofNat seconds ∧ panel.get .size = Float.ofNat size ∧
      panel.get .packets = Float.ofNat packets ∧
      panel.testArgument direction =
        direction.flag ++ "=" ++ toString seconds ++ "," ++ toString size ++ "," ++
          toString packets ++ "," ++ toString (packets * size * 8 / seconds) ++ "bps" := by
  obtain ⟨seconds, secondsShown, secondsRange⟩ :
      ∃ n : ℕ, panel.get .seconds = Float.ofNat n ∧ 1 ≤ n ∧ n ≤ 10 :=
    (onScale .seconds).exists_nat (by decide)
  obtain ⟨size, sizeShown, sizeRange⟩ :
      ∃ n : ℕ, panel.get .size = Float.ofNat n ∧ 64 ≤ n ∧ n ≤ 1400 :=
    (onScale .size).exists_nat (by decide)
  obtain ⟨packets, packetsShown, packetsRange⟩ :
      ∃ n : ℕ, panel.get .packets = Float.ofNat n ∧ 1 ≤ n ∧ n ≤ 187500000 :=
    (onScale .packets).exists_nat (by decide)
  refine ⟨seconds, size, packets, secondsShown, sizeShown, packetsShown, ?_⟩
  obtain ⟨rate, ratePositive, rateBounded⟩ :=
    truncate_targetBps secondsShown sizeShown packetsShown secondsRange sizeRange packetsRange
  change direction.flag ++ "=" ++ Number.plain (panel.get .seconds) ++ "," ++
    Number.plain (panel.get .size) ++ "," ++ Number.plain (panel.get .packets) ++ "," ++
    Number.plain (Number.truncate panel.targetBps) ++ "bps" = _
  rw [rate, secondsShown, sizeShown, packetsShown, Number.plain_ofNat ratePositive rateBounded,
    Number.plain_ofNat (n := seconds) (by omega) (by omega),
    Number.plain_ofNat (n := size) (by omega) (by omega),
    Number.plain_ofNat (n := packets) (by omega) (by omega)]

end Panel
end NetworkConsole
