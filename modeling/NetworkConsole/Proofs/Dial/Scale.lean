import NetworkConsole.Dial.Panel
import NetworkConsole.Proofs.Number.Rounding

/-!
# Scales of dials

A value at a dial's precision that the dial accepts lies on the dial's scale: it is a
whole number, or a whole number of hundredths on the bandwidth dial. The least bandwidth
that the dial accepts is not on its scale, and no other dial can be solved from it.
-/

namespace NetworkConsole

open Binary64

namespace Dial

/-- The values that a dial can show. -/
def OnScale (dial : Dial) (x : Float) : Prop :=
  dial.accepts x = true ∧
    match dial with
    | .bandwidth =>
        ∃ hundredths : ℕ, 1 ≤ hundredths ∧ hundredths ≤ 15000 ∧ x = Float.ofNat hundredths / 100
    | _ => ∃ n : ℕ, x = Float.ofNat n

/-! ## Ranges -/

theorem isFinite_min (dial : Dial) : dial.min.isFinite = true := by
  cases dial <;> rfl

theorem isFinite_max (dial : Dial) : dial.max.isFinite = true := by
  cases dial <;> rfl

/-- A dial accepts the finite numbers between the ends of its range. -/
theorem accepts_iff (dial : Dial) (x : Float) :
    dial.accepts x = true ↔
      x.isFinite = true ∧ value dial.min ≤ value x ∧ value x ≤ value dial.max := by
  simp only [accepts, Bool.and_eq_true, decide_eq_true_eq, and_assoc]
  apply and_congr_right
  intro finite
  rw [le_iff dial.isFinite_min finite, le_iff finite dial.isFinite_max]

/-- The least bandwidth is a little less than `2 ^ -23`. -/
theorem value_min_bandwidth :
    0 < value (Dial.min .bandwidth) ∧ value (Dial.min .bandwidth) ≤ 2 ^ (-23 : ℤ) := by
  have unpacked : (Dial.min .bandwidth).toModel.unpack =
      .finite .positive 0x1AD7F29ABCAF48 (-76) (by norm_num) := rfl
  rw [value, unpacked, rational, factor]
  norm_num

theorem one_le_value_min {dial : Dial} (whole : dial ≠ .bandwidth) : 1 ≤ value dial.min := by
  cases dial with
  | seconds => exact (value_ofNat (n := 1) (by norm_num)).symm.le.trans' (by norm_num)
  | size => exact (value_ofNat (n := 64) (by norm_num)).symm.le.trans' (by norm_num)
  | packets => exact (value_ofNat (n := 1) (by norm_num)).symm.le.trans' (by norm_num)
  | bandwidth => exact absurd rfl whole

theorem value_max_le (dial : Dial) : value dial.max ≤ 187500000 := by
  cases dial with
  | seconds => exact (value_ofNat (n := 10) (by norm_num)).le.trans (by norm_num)
  | size => exact (value_ofNat (n := 1400) (by norm_num)).le.trans (by norm_num)
  | packets => exact (value_ofNat (n := 187500000) (by norm_num)).le.trans (by norm_num)
  | bandwidth => exact (value_ofNat (n := 150) (by norm_num)).le.trans (by norm_num)

/-! ## Precision -/

/-- A whole value that is accepted lies on the scale. -/
theorem onScale_truncate
    {dial : Dial}
    (whole : dial ≠ .bandwidth)
    {x : Float}
    (accepted : dial.accepts (Number.truncate x) = true) :
    dial.OnScale (Number.truncate x) := by
  obtain ⟨finite, least, greatest⟩ := (accepts_iff _ _).mp accepted
  obtain ⟨-, magnitude⟩ := Number.truncate_value (Number.isFinite_of_truncate finite)
  have positive : 0 < value (Number.truncate x) := by
    linarith [one_le_value_min whole]
  obtain ⟨n, floor⟩ := Int.eq_ofNat_of_zero_le (Int.floor_nonneg.mpr (abs_nonneg (value x)))
  have exact : value (Number.truncate x) = n := by
    rw [abs_of_pos positive, floor] at magnitude
    exact_mod_cast magnitude
  have bounded : n < 2 ^ 53 := by
    have below : (n : ℚ) ≤ 187500000 := exact ▸ greatest.trans dial.value_max_le
    have : n ≤ 187500000 := by exact_mod_cast below
    omega
  have same : Number.truncate x = Float.ofNat n :=
    eq_of_value_eq finite (isFinite_ofNat bounded) positive.ne' (by rw [exact, value_ofNat bounded])
  refine ⟨accepted, ?_⟩
  cases dial with
  | bandwidth => exact absurd rfl whole
  | _ => exact ⟨n, same⟩

/-- A number of hundredths as a float. -/
theorem hundredth_roundsTo {x : Float} (finite : x.isFinite = true) :
    RoundsTo (value x / 100) (x / 100) := by
  have hundred := value_ofNat (n := 100) (by norm_num)
  have quotient := div_roundsTo finite (isFinite_ofNat (n := 100) (by norm_num))
    (by rw [hundred]; norm_num)
  rw [hundred] at quotient
  exact_mod_cast quotient

/-- An accepted bandwidth at its precision is a number of hundredths. -/
theorem onScale_hundredths
    {x : Float}
    (accepted : Dial.accepts .bandwidth (Number.round x / 100) = true) :
    OnScale .bandwidth (Number.round x / 100) := by
  obtain ⟨finite, least, greatest⟩ := (accepts_iff _ _).mp accepted
  have roundFinite := isFinite_of_div finite
  obtain ⟨-, n, magnitude⟩ := Number.round_value (Number.isFinite_of_round roundFinite)
  have quotient := (hundredth_roundsTo roundFinite).value_eq finite
  rw [quotient] at least greatest
  have positive : 0 < value (Number.round x) := by
    by_contra nonpos
    have below := nearest_mono (show value (Number.round x) / 100 ≤ 0 by linarith)
    rw [nearest_zero] at below
    linarith [value_min_bandwidth.1]
  rw [abs_of_pos positive] at magnitude
  have atLeast : 1 ≤ n := by
    rw [magnitude] at positive
    exact_mod_cast positive
  have atMost : n ≤ 15000 := by
    by_contra above
    have size : (15001 : ℚ) ≤ n := by exact_mod_cast Nat.lt_of_not_le above
    have bound : Representable (19201 / 128) :=
      ⟨19201, -7, by norm_num, by norm_num, by norm_num⟩
    -- The next hundredth stays above the range even after its quotient is rounded.
    have lower := le_nearest bound (show 19201 / 128 ≤ value (Number.round x) / 100 by
      rw [magnitude]
      linarith)
    have upper : value (Dial.max .bandwidth) = 150 := value_ofNat (n := 150) (by norm_num)
    linarith
  have bounded : n < 2 ^ 53 := by omega
  have same : Number.round x = Float.ofNat n :=
    eq_of_value_eq roundFinite (isFinite_ofNat bounded) positive.ne'
      (by rw [magnitude, value_ofNat bounded])
  exact ⟨accepted, n, atLeast, atMost, by rw [same]⟩

/-- An accepted value at its dial's precision lies on the scale. -/
theorem onScale_normalize
    {dial : Dial}
    {x : Float}
    (accepted : dial.accepts (dial.normalize x) = true) :
    dial.OnScale (dial.normalize x) := by
  cases dial with
  | bandwidth => exact onScale_hundredths accepted
  | _ => exact onScale_truncate (by decide) accepted

theorem onScale_max (dial : Dial) : dial.OnScale dial.max := by
  cases dial with
  | seconds => exact ⟨rfl, 10, rfl⟩
  | size => exact ⟨rfl, 1400, rfl⟩
  | packets => exact ⟨rfl, 187500000, rfl⟩
  | bandwidth => exact ⟨rfl, 15000, by norm_num, le_rfl, rfl⟩

theorem onScale_min {dial : Dial} (whole : dial ≠ .bandwidth) : dial.OnScale dial.min := by
  cases dial with
  | seconds => exact ⟨rfl, 1, rfl⟩
  | size => exact ⟨rfl, 64, rfl⟩
  | packets => exact ⟨rfl, 1, rfl⟩
  | bandwidth => exact absurd rfl whole

/-- Bringing a number into the range leaves it as it is or gives an end of the range. -/
theorem clamp_cases (dial : Dial) {x : Float} (finite : x.isFinite = true) :
    dial.clamp x = dial.min ∨ dial.clamp x = dial.max ∨
      (dial.clamp x = x ∧ dial.accepts x = true) := by
  unfold clamp Number.clamp
  by_cases low : x < dial.min
  · simp only [if_pos low]
    split_ifs
    · exact .inr (.inl rfl)
    · exact .inl rfl
  · simp only [if_neg low]
    split_ifs with high
    · exact .inr (.inl rfl)
    · rw [lt_iff finite dial.isFinite_min, not_lt] at low
      rw [lt_iff dial.isFinite_max finite, not_lt] at high
      exact .inr (.inr ⟨rfl, (accepts_iff _ _).mpr ⟨finite, low, high⟩⟩)

/-- The scale of the bandwidth dial starts above the least bandwidth that it accepts. -/
theorem not_onScale_min_bandwidth : ¬ OnScale .bandwidth (Dial.min .bandwidth) := by
  rintro ⟨-, n, atLeast, atMost, same⟩
  have bounded : n < 2 ^ 53 := by omega
  have finite : (Float.ofNat n / 100).isFinite = true := same ▸ isFinite_min .bandwidth
  have quotient := (hundredth_roundsTo (isFinite_ofNat bounded)).value_eq finite
  have size : (1 : ℚ) ≤ n := by exact_mod_cast atLeast
  have lower := le_nearest (representable_two_zpow (-7) (by norm_num))
    (show 2 ^ (-7 : ℤ) ≤ value (Float.ofNat n) / 100 by
      rw [value_ofNat bounded]
      norm_num
      linarith)
  have upper := value_min_bandwidth.2
  rw [same, quotient] at upper
  norm_num at lower upper
  linarith

end Dial

/-! ## Solving at the least bandwidth -/

/-- Finite floats from zero to a power of two. -/
structure UpToTwoPow (exponent : ℤ) (x : Float) : Prop where
  finite : x.isFinite = true
  nonneg : 0 ≤ value x
  bounded : value x ≤ 2 ^ exponent

namespace UpToTwoPow

variable {x y : Float} {left right : ℤ}

/-- A result that rounds a number up to a power of two does not exceed it. -/
theorem of_roundsTo
    {q : ℚ}
    {exponent : ℤ}
    (rounds : RoundsTo q x)
    (nonneg : 0 ≤ q)
    (bounded : q ≤ 2 ^ exponent)
    (least : -1074 ≤ exponent)
    (small : exponent < 1024) :
    UpToTwoPow exponent x := by
  have representable := representable_two_zpow exponent least
  have finite := rounds.isFinite_of_le representable
    (zpow_lt_zpow_right₀ (by norm_num) small) (by rwa [abs_of_nonneg nonneg])
  refine ⟨finite, ?_, ?_⟩
  · rw [rounds.value_eq finite]
    exact nearest_nonneg nonneg
  · rw [rounds.value_eq finite]
    exact nearest_le representable bounded

theorem mul
    (first : UpToTwoPow left x)
    (second : UpToTwoPow right y)
    (least : -1074 ≤ left + right)
    (small : left + right < 1024) :
    UpToTwoPow (left + right) (x * y) := by
  refine of_roundsTo (mul_roundsTo first.finite second.finite)
    (mul_nonneg first.nonneg second.nonneg) ?_ least small
  rw [zpow_add₀ two_ne_zero]
  exact mul_le_mul first.bounded second.bounded second.nonneg (by positivity)

theorem div
    (dividend : UpToTwoPow left x)
    (finite : y.isFinite = true)
    (divisor : 2 ^ right ≤ value y)
    (least : -1074 ≤ left - right)
    (small : left - right < 1024) :
    UpToTwoPow (left - right) (x / y) := by
  have scale : (0 : ℚ) < 2 ^ right := by positivity
  have positive : 0 < value y := scale.trans_le divisor
  refine of_roundsTo (div_roundsTo dividend.finite finite positive.ne')
    (div_nonneg dividend.nonneg positive.le) ?_ least small
  rw [zpow_sub₀ two_ne_zero]
  exact div_le_div₀ (by positivity) dividend.bounded scale divisor

/-- A number up to a half is truncated to zero, which no whole dial accepts. -/
theorem not_accepts_truncate
    {dial : Dial}
    (whole : dial ≠ .bandwidth)
    (half : UpToTwoPow (-1) x) :
    dial.accepts (Number.truncate x) = false := by
  rw [← Bool.not_eq_true, Dial.accepts_iff]
  rintro ⟨-, least, -⟩
  have zero : ⌊|value x|⌋ = 0 := by
    have bounded := half.bounded
    rw [abs_of_nonneg half.nonneg, Int.floor_eq_zero_iff]
    norm_num at bounded
    exact ⟨half.nonneg, by linarith⟩
  obtain ⟨-, magnitude⟩ := Number.truncate_value half.finite
  rw [zero, Int.cast_zero, abs_eq_zero] at magnitude
  linarith [Dial.one_le_value_min whole]

end UpToTwoPow

namespace Dial

theorem upToTwoPow_of_accepts
    {dial : Dial}
    (whole : dial ≠ .bandwidth)
    {x : Float}
    {exponent : ℤ}
    (accepted : dial.accepts x = true)
    (bounded : value dial.max ≤ 2 ^ exponent) :
    UpToTwoPow exponent x := by
  obtain ⟨finite, least, greatest⟩ := (accepts_iff _ _).mp accepted
  exact ⟨finite, by linarith [one_le_value_min whole], greatest.trans bounded⟩

theorem value_one_add_slack : value (1 + slack) = 4503599631874096 * 2 ^ (-52 : ℤ) := by
  have unpacked : (1 + slack).toModel.unpack =
      .finite .positive 4503599631874096 (-52) (by norm_num) := rfl
  rw [value, unpacked, rational, factor, one_mul]
  norm_num

theorem upToTwoPow_slack : UpToTwoPow 1 (1 + slack) := by
  refine ⟨rfl, ?_, ?_⟩
  · rw [value_one_add_slack]
    positivity
  · rw [value_one_add_slack]
    norm_num

/-- Eight times an accepted whole value is finite and at least eight. -/
theorem eightfold_of_accepts
    {dial : Dial}
    (whole : dial ≠ .bandwidth)
    {x : Float}
    (accepted : dial.accepts x = true) :
    (x * 8).isFinite = true ∧ 2 ^ (3 : ℤ) ≤ value (x * 8) := by
  have size : UpToTwoPow 28 x :=
    upToTwoPow_of_accepts whole accepted (dial.value_max_le.trans (by norm_num))
  have eight : value (8 : Float) = 8 := value_ofNat (n := 8) (by norm_num)
  have factorSize : UpToTwoPow 3 8 := ⟨rfl, by rw [eight]; norm_num, by rw [eight]; norm_num⟩
  have product := mul_roundsTo size.finite factorSize.finite
  rw [eight] at product
  have least : 1 ≤ value x := (one_le_value_min whole).trans ((accepts_iff _ _).mp accepted).2.1
  have finite := (size.mul factorSize (by norm_num) (by norm_num)).finite
  refine ⟨finite, ?_⟩
  rw [product.value_eq finite]
  apply le_nearest (representable_two_zpow 3 (by norm_num))
  norm_num
  linarith

/-- The bits that the least bandwidth sends are too few for one byte or one packet. -/
theorem not_accepts_solved_of_least
    {dial other : Dial}
    (whole : dial ≠ .bandwidth)
    (otherWhole : other ≠ .bandwidth)
    {seconds x : Float}
    (secondsAccepted : Dial.accepts .seconds seconds = true)
    (accepted : other.accepts x = true) :
    dial.accepts (Number.truncate
      (Dial.min .bandwidth * Panel.bitsPerMegabit * seconds / (x * 8) * (1 + slack))) = false := by
  have bandwidth : UpToTwoPow (-23) (Dial.min .bandwidth) :=
    ⟨rfl, value_min_bandwidth.1.le, value_min_bandwidth.2⟩
  have million : value Panel.bitsPerMegabit = 1000000 := value_ofNat (n := 1000000) (by norm_num)
  have unit : UpToTwoPow 20 Panel.bitsPerMegabit :=
    ⟨rfl, by rw [million]; norm_num, by rw [million]; norm_num⟩
  have duration : UpToTwoPow 4 seconds := by
    apply upToTwoPow_of_accepts (by decide) secondsAccepted
    exact (value_ofNat (n := 10) (by norm_num)).le.trans (by norm_num)
  obtain ⟨divisorFinite, divisor⟩ := eightfold_of_accepts otherWhole accepted
  have rate := bandwidth.mul unit (by norm_num) (by norm_num)
  have sent := rate.mul duration (by norm_num) (by norm_num)
  have quotient := sent.div divisorFinite divisor (by norm_num) (by norm_num)
  have half := quotient.mul upToTwoPow_slack (by norm_num) (by norm_num)
  exact UpToTwoPow.not_accepts_truncate whole half

end Dial

/-- At the least bandwidth neither the size nor the number of packets can be solved within
its range. -/
theorem Panel.not_accepts_solve_of_least
    {panel : Panel}
    {target : Dial}
    (least : panel.get .bandwidth = Dial.min .bandwidth)
    (accepted : ∀ dial : Dial, dial ≠ .bandwidth → dial.accepts (panel.get dial) = true)
    (solved : target = .size ∨ target = .packets) :
    target.accepts (panel.solve target) = false := by
  have rate : panel.bandwidthBps = Dial.min .bandwidth * bitsPerMegabit :=
    congrArg (· * bitsPerMegabit) least
  rcases solved with rfl | rfl
  · unfold solve derive
    rw [rate]
    exact Dial.not_accepts_solved_of_least (by decide) (by decide) (accepted .seconds (by decide))
      (accepted .packets (by decide))
  · unfold solve derive
    rw [rate]
    exact Dial.not_accepts_solved_of_least (by decide) (by decide) (accepted .seconds (by decide))
      (accepted .size (by decide))

end NetworkConsole
