import NetworkConsole.Proofs.Binary64.Rounding

/-!
# Operations on unpacked floats

The sum, product and quotient of canonical floats are canonical and stand for the exact
result rounded once. Comparison is comparison of the numbers.
-/

namespace NetworkConsole
namespace Binary64

open Float.Model
open Float.Model.UnpackedFloat (Sign)

theorem factor_mul (left right : Sign) : factor (left * right) = factor left * factor right := by
  cases left <;> cases right
  · change (1 : ℚ) = -1 * -1
    norm_num
  · change (-1 : ℚ) = -1 * 1
    norm_num
  · change (-1 : ℚ) = 1 * -1
    norm_num
  · change (1 : ℚ) = 1 * 1
    norm_num

theorem factor_div (left right : Sign) : factor (left / right) = factor left / factor right := by
  have inverse : (factor right)⁻¹ = factor right := by
    cases right <;> norm_num [factor]
  have quotient : left / right = left * right := by
    cases left <;> cases right <;> rfl
  rw [quotient, factor_mul, div_eq_mul_inv, inverse]

theorem factor_neg (sign : Sign) : factor (-sign) = -factor sign := by
  cases sign
  · exact (neg_neg 1).symm
  · rfl

theorem apply_eq_factor_mul (sign : Sign) (count : ℤ) :
    (sign.apply count : ℚ) = factor sign * count := by
  cases sign <;> simp [Sign.apply, factor]

/-- A canonical float is rounded to itself. -/
theorem nearest_rational {unpacked : UnpackedFloat} (canonical : Canonical unpacked) :
    nearest (rational unpacked) = rational unpacked := by
  cases unpacked with
  | finite sign count place positive =>
      obtain ⟨bounded, least, -⟩ := canonical
      refine Representable.nearest_eq ⟨sign.apply count, place, ?_, least, ?_⟩
      · cases sign <;> simp [Sign.apply] <;> exact_mod_cast bounded
      · rw [apply_eq_factor_mul]
        simp [rational, mul_assoc]
  | _ => simp [rational]

/-! ## Multiplication -/

/-- A product of significands has digits to spare below its last place. -/
theorem mul_covered
    {leftSign rightSign : Sign}
    {left right : ℕ}
    {leftPlace rightPlace : ℤ}
    {leftPositive : 0 < left}
    {rightPositive : 0 < right}
    (leftCanonical : Canonical (.finite leftSign left leftPlace leftPositive))
    (rightCanonical : Canonical (.finite rightSign right rightPlace rightPositive)) :
    leftPlace + rightPlace ≤
      Format.binary64.targetExponent (totalExponent (left * right) (leftPlace + rightPlace)) := by
  obtain ⟨-, -, leftFull⟩ := leftCanonical
  obtain ⟨-, -, rightFull⟩ := rightCanonical
  have product : left * right ≠ 0 := by positivity
  rw [targetExponent_eq]
  unfold totalExponent
  -- A product of fewer than 53 digits has two subnormal factors.
  by_cases wide : 2 ^ 52 ≤ left * right
  · have := (Nat.le_log2 product).mpr wide
    omega
  · have leftBelow : left < 2 ^ 52 := by
      have := Nat.le_mul_of_pos_right left rightPositive
      omega
    have rightBelow : right < 2 ^ 52 := by
      have := Nat.le_mul_of_pos_left right leftPositive
      omega
    omega

/-- A product stands for the exact product rounded once. -/
theorem mul_rational
    {left right : UnpackedFloat}
    (leftCanonical : Canonical left)
    (rightCanonical : Canonical right) :
    Canonical (UnpackedFloat.mul Format.binary64 left right) ∧
      rational (UnpackedFloat.mul Format.binary64 left right) =
        nearest (rational left * rational right) := by
  cases left with
  | zero leftSign =>
      cases right <;> simp_all [Canonical, UnpackedFloat.mul, rational]
  | finite leftSign left leftPlace leftPositive =>
      cases right with
      | zero rightSign => simp [Canonical, UnpackedFloat.mul, rational]
      | finite rightSign right rightPlace rightPositive =>
          obtain ⟨canonical, value⟩ :=
            roundWithAccuracy_rational (leftSign * rightSign) (denotes_exact (left * right))
              (mul_covered leftCanonical rightCanonical)
          refine ⟨canonical, value.trans ?_⟩
          have exact : rational (.finite leftSign left leftPlace leftPositive) *
              rational (.finite rightSign right rightPlace rightPositive) =
              factor (leftSign * rightSign) *
                (((left * right : ℕ) : ℚ) * 2 ^ (leftPlace + rightPlace)) := by
            rw [factor_mul, zpow_add₀ two_ne_zero]
            push_cast
            simp only [rational]
            ring
          rw [exact]
          exact (nearest_factor_mul _ _).symm
      | _ => exact absurd rightCanonical (by simp [Canonical])
  | _ => exact absurd leftCanonical (by simp [Canonical])

/-! ## Division -/

/-- The quotient of significands has at least the digits that its last place asks for. -/
theorem div_covered
    {left right : ℕ}
    {leftPlace rightPlace target : ℤ}
    {digits : ℕ}
    (leftPositive : 0 < left)
    (rightPositive : 0 < right)
    (aligned : target + digits = leftPlace - rightPlace)
    (covered : target ≤ Format.binary64.targetExponent
      (totalExponent left leftPlace - totalExponent right rightPlace)) :
    target ≤ Format.binary64.targetExponent
      (totalExponent ((left <<< digits) / right) target) := by
  rw [targetExponent_eq] at covered ⊢
  unfold totalExponent at covered ⊢
  by_cases wide : right.log2 + 1 ≤ left.log2 + digits
  · have lower : 2 ^ (left.log2 + digits - (right.log2 + 1)) ≤ (left <<< digits) / right := by
      rw [Nat.le_div_iff_mul_le rightPositive, Nat.shiftLeft_eq]
      calc 2 ^ (left.log2 + digits - (right.log2 + 1)) * right
          ≤ 2 ^ (left.log2 + digits - (right.log2 + 1)) * 2 ^ (right.log2 + 1) :=
            Nat.mul_le_mul_left _ Nat.lt_log2_self.le
        _ = 2 ^ left.log2 * 2 ^ digits := by
            rw [← pow_add, ← pow_add]
            congr 1
            omega
        _ ≤ left * 2 ^ digits := Nat.mul_le_mul_right _ (Nat.log2_self_le leftPositive.ne')
    have nonzero : (left <<< digits) / right ≠ 0 := by
      have := Nat.two_pow_pos (left.log2 + digits - (right.log2 + 1))
      omega
    have size := (Nat.le_log2 nonzero).mpr lower
    omega
  · omega

/-- A quotient of significands of any size stands for the exact quotient rounded once. -/
theorem div_finite_rational
    (leftSign rightSign : Sign)
    {left right : ℕ}
    (leftPlace rightPlace : ℤ)
    (leftPositive : 0 < left)
    (rightPositive : 0 < right) :
    let dividend : UnpackedFloat := .finite leftSign left leftPlace leftPositive
    let divisor : UnpackedFloat := .finite rightSign right rightPlace rightPositive
    Canonical (UnpackedFloat.div Format.binary64 dividend divisor) ∧
      rational (UnpackedFloat.div Format.binary64 dividend divisor) =
        nearest (rational dividend / rational divisor) := by
  intro dividend divisor
  set target := min (leftPlace - rightPlace) (Format.binary64.targetExponent
    (totalExponent left leftPlace - totalExponent right rightPlace)) with targetDef
  set digits := (leftPlace - rightPlace - target).toNat with digitsDef
  have aligned : target + (digits : ℤ) = leftPlace - rightPlace := by omega
  obtain ⟨canonical, value⟩ :=
    roundWithAccuracy_rational (leftSign / rightSign)
      (denotes_quotient (left <<< digits) rightPositive)
      (div_covered leftPositive rightPositive aligned (min_le_right _ _))
  refine ⟨canonical, value.trans ?_⟩
  have exact : rational dividend / rational divisor =
      factor (leftSign / rightSign) * ((((left <<< digits : ℕ) : ℚ) / right) * 2 ^ target) := by
    have scale : (2 : ℚ) ^ leftPlace = 2 ^ target * 2 ^ digits * 2 ^ rightPlace := by
      rw [← zpow_natCast, ← zpow_add₀ two_ne_zero, ← zpow_add₀ two_ne_zero]
      congr 1
      omega
    rw [factor_div, Nat.shiftLeft_eq]
    simp only [dividend, divisor, rational, scale]
    push_cast
    field_simp
  rw [exact, nearest_factor_mul]

/-- A quotient stands for the exact quotient rounded once. -/
theorem div_rational
    {left right : UnpackedFloat}
    (leftCanonical : Canonical left)
    (rightCanonical : Canonical right)
    (nonzero : rational right ≠ 0) :
    Canonical (UnpackedFloat.div Format.binary64 left right) ∧
      rational (UnpackedFloat.div Format.binary64 left right) =
        nearest (rational left / rational right) := by
  cases right with
  | finite rightSign right rightPlace rightPositive =>
      cases left with
      | zero leftSign => simp [Canonical, UnpackedFloat.div, rational]
      | finite leftSign left leftPlace leftPositive =>
          exact div_finite_rational leftSign rightSign leftPlace rightPlace leftPositive
            rightPositive
      | _ => exact absurd leftCanonical (by simp [Canonical])
  | _ => exact absurd rfl nonzero

/-! ## Addition -/

/-- The significand of a sum, aligned at a common place. -/
theorem factor_mul_decreaseExponent
    (sign : Sign)
    (count : ℕ)
    {place target : ℤ}
    (aligned : target ≤ place) :
    (sign.apply (UnpackedFloat.decreaseExponent count place target).1 : ℚ) * 2 ^ target =
      factor sign * (count * 2 ^ place) := by
  have value := rational_decreaseExponent count place target
  have exponent : (UnpackedFloat.decreaseExponent count place target).2 = target := by
    simp only [UnpackedFloat.decreaseExponent]
    omega
  rw [exponent] at value
  rw [apply_eq_factor_mul, mul_assoc]
  push_cast
  rw [value]

/-- A sum stands for the exact sum rounded once. -/
theorem add_rational
    {left right : UnpackedFloat}
    (leftCanonical : Canonical left)
    (rightCanonical : Canonical right) :
    Canonical (UnpackedFloat.add Format.binary64 left right) ∧
      rational (UnpackedFloat.add Format.binary64 left right) =
        nearest (rational left + rational right) := by
  cases left with
  | zero leftSign =>
      cases right with
      | zero rightSign =>
          have sum : ∃ sign, UnpackedFloat.add Format.binary64 (.zero leftSign)
              (.zero rightSign) = .zero sign := by
            cases leftSign <;> cases rightSign <;> exact ⟨_, rfl⟩
          obtain ⟨sign, zero⟩ := sum
          simp [zero, Canonical, rational]
      | finite rightSign right rightPlace rightPositive =>
          refine ⟨rightCanonical, ?_⟩
          rw [show rational (.zero leftSign) = 0 from rfl, zero_add,
            nearest_rational rightCanonical]
          rfl
      | _ => exact absurd rightCanonical (by simp [Canonical])
  | finite leftSign left leftPlace leftPositive =>
      cases right with
      | zero rightSign =>
          refine ⟨leftCanonical, ?_⟩
          rw [show rational (.zero rightSign) = 0 from rfl, add_zero,
            nearest_rational leftCanonical]
          rfl
      | finite rightSign right rightPlace rightPositive =>
          obtain ⟨canonical, value⟩ := normalize_rational
            (leftSign.apply (UnpackedFloat.decreaseExponent left leftPlace
                (min leftPlace rightPlace)).1 +
              rightSign.apply (UnpackedFloat.decreaseExponent right rightPlace
                (min leftPlace rightPlace)).1)
            (min leftPlace rightPlace) .positive
          refine ⟨canonical, value.trans ?_⟩
          rw [Int.cast_add, add_mul, factor_mul_decreaseExponent leftSign left (min_le_left _ _),
            factor_mul_decreaseExponent rightSign right (min_le_right _ _)]
          rfl
      | _ => exact absurd rightCanonical (by simp [Canonical])
  | _ => exact absurd leftCanonical (by simp [Canonical])

/-! ## Comparison -/

/-- Of two canonical floats the one at the higher place is larger. -/
theorem magnitude_lt_of_place_lt
    {leftSign rightSign : Sign}
    {left right : ℕ}
    {leftPlace rightPlace : ℤ}
    {leftPositive : 0 < left}
    {rightPositive : 0 < right}
    (leftCanonical : Canonical (.finite leftSign left leftPlace leftPositive))
    (rightCanonical : Canonical (.finite rightSign right rightPlace rightPositive))
    (lower : leftPlace < rightPlace) :
    (left * 2 ^ leftPlace : ℚ) < right * 2 ^ rightPlace := by
  obtain ⟨bounded, least, -⟩ := leftCanonical
  obtain ⟨-, -, full⟩ := rightCanonical
  have below : (left : ℚ) < 2 ^ 53 := by exact_mod_cast bounded
  have filled : (2 : ℚ) ^ 52 ≤ right := by exact_mod_cast full.resolve_right (by omega)
  calc (left : ℚ) * 2 ^ leftPlace < 2 ^ 53 * 2 ^ leftPlace :=
      mul_lt_mul_of_pos_right below (by positivity)
    _ = 2 ^ 52 * 2 ^ (leftPlace + 1) := by
      rw [zpow_add₀ two_ne_zero]
      ring
    _ ≤ 2 ^ 52 * 2 ^ rightPlace :=
      mul_le_mul_of_nonneg_left (zpow_le_zpow_right₀ (by norm_num) (by omega)) (by positivity)
    _ ≤ right * 2 ^ rightPlace := mul_le_mul_of_nonneg_right filled (by positivity)

/-- Comparing first the places and then the significands compares the sizes. -/
theorem compare_magnitude
    {leftSign rightSign : Sign}
    {left right : ℕ}
    {leftPlace rightPlace : ℤ}
    {leftPositive : 0 < left}
    {rightPositive : 0 < right}
    (leftCanonical : Canonical (.finite leftSign left leftPlace leftPositive))
    (rightCanonical : Canonical (.finite rightSign right rightPlace rightPositive)) :
    (compare leftPlace rightPlace).then (compare left right) =
      compare (left * 2 ^ leftPlace : ℚ) (right * 2 ^ rightPlace) := by
  rcases lt_trichotomy leftPlace rightPlace with lower | rfl | higher
  · have smaller := magnitude_lt_of_place_lt leftCanonical rightCanonical lower
    rw [compare_lt_iff_lt.mpr lower, compare_lt_iff_lt.mpr smaller]
    rfl
  · have scale : (0 : ℚ) < 2 ^ leftPlace := by positivity
    rw [compare_eq_iff_eq.mpr rfl, Ordering.then]
    rcases lt_trichotomy left right with smaller | rfl | larger
    · have scaled : (left * 2 ^ leftPlace : ℚ) < right * 2 ^ leftPlace :=
        mul_lt_mul_of_pos_right (by exact_mod_cast smaller) scale
      rw [compare_lt_iff_lt.mpr smaller, compare_lt_iff_lt.mpr scaled]
    · rw [compare_eq_iff_eq.mpr rfl, compare_eq_iff_eq.mpr rfl]
    · have scaled : (right * 2 ^ leftPlace : ℚ) < left * 2 ^ leftPlace :=
        mul_lt_mul_of_pos_right (by exact_mod_cast larger) scale
      rw [compare_gt_iff_gt.mpr larger, compare_gt_iff_gt.mpr scaled]
  · have larger := magnitude_lt_of_place_lt rightCanonical leftCanonical higher
    rw [compare_gt_iff_gt.mpr higher, compare_gt_iff_gt.mpr larger]
    rfl

theorem compare_neg_neg (p q : ℚ) : compare (-p) (-q) = compare q p := by
  rcases lt_trichotomy q p with smaller | rfl | larger
  · rw [compare_lt_iff_lt.mpr smaller, compare_lt_iff_lt.mpr (neg_lt_neg smaller)]
  · rw [compare_eq_iff_eq.mpr rfl, compare_eq_iff_eq.mpr rfl]
  · rw [compare_gt_iff_gt.mpr larger, compare_gt_iff_gt.mpr (neg_lt_neg larger)]

/-- Comparison is comparison of the numbers. -/
theorem compare_rational
    {left right : UnpackedFloat}
    (leftCanonical : Canonical left)
    (rightCanonical : Canonical right) :
    left.compare right = some (compare (rational left) (rational right)) := by
  cases left with
  | zero leftSign =>
      cases right with
      | zero rightSign => simp [UnpackedFloat.compare, rational]
      | finite rightSign right rightPlace rightPositive =>
          have size : (0 : ℚ) < right * 2 ^ rightPlace := by positivity
          cases rightSign with
          | negative =>
              simp only [UnpackedFloat.compare, rational, factor, neg_one_mul]
              rw [compare_gt_iff_gt.mpr (neg_lt_zero.mpr size)]
          | positive =>
              simp only [UnpackedFloat.compare, rational, factor, one_mul]
              rw [compare_lt_iff_lt.mpr size]
      | _ => exact rightCanonical.elim
  | finite leftSign left leftPlace leftPositive =>
      have leftSize : (0 : ℚ) < left * 2 ^ leftPlace := by positivity
      cases right with
      | zero rightSign =>
          cases leftSign with
          | negative =>
              simp only [UnpackedFloat.compare, rational, factor, neg_one_mul]
              rw [compare_lt_iff_lt.mpr (neg_lt_zero.mpr leftSize)]
          | positive =>
              simp only [UnpackedFloat.compare, rational, factor, one_mul]
              rw [compare_gt_iff_gt.mpr leftSize]
      | finite rightSign right rightPlace rightPositive =>
          have rightSize : (0 : ℚ) < right * 2 ^ rightPlace := by positivity
          have magnitudes := compare_magnitude leftCanonical rightCanonical
          cases leftSign <;> cases rightSign <;>
            simp only [UnpackedFloat.compare, rational, factor, one_mul, neg_one_mul]
          · rw [magnitudes, ← Std.OrientedCmp.eq_swap, compare_neg_neg]
          · rw [compare_lt_iff_lt.mpr (by linarith)]
          · rw [compare_gt_iff_gt.mpr (by linarith)]
          · rw [magnitudes]
      | _ => exact rightCanonical.elim
  | _ => exact leftCanonical.elim

/-- Canonical floats of the same number are the same, unless they are zeros. -/
theorem eq_of_rational_eq
    {left right : UnpackedFloat}
    (leftCanonical : Canonical left)
    (rightCanonical : Canonical right)
    (nonzero : rational left ≠ 0)
    (same : rational left = rational right) :
    left = right := by
  have equal := compare_rational leftCanonical rightCanonical
  rw [compare_eq_iff_eq.mpr same] at equal
  cases left with
  | finite leftSign left leftPlace leftPositive =>
      cases right with
      | finite rightSign right rightPlace rightPositive =>
          cases leftSign <;> cases rightSign <;>
            simp_all [UnpackedFloat.compare, Ordering.then_eq_eq]
      | _ => exact absurd same nonzero
  | _ => exact absurd rfl nonzero

/-! ## Signs and whole parts -/

theorem neg_rational {unpacked : UnpackedFloat} (canonical : Canonical unpacked) :
    Canonical unpacked.neg ∧ rational unpacked.neg = -rational unpacked := by
  cases unpacked with
  | zero sign => exact ⟨trivial, neg_zero.symm⟩
  | finite sign count place positive =>
      refine ⟨canonical, ?_⟩
      simp only [UnpackedFloat.neg, rational, factor_neg]
      ring
  | _ => exact canonical.elim

theorem sub_eq_add (left right : UnpackedFloat) :
    UnpackedFloat.sub Format.binary64 left right =
      UnpackedFloat.add Format.binary64 left right.neg := by
  cases left with
  | finite leftSign left leftPlace leftPositive =>
      cases right with
      | finite rightSign right rightPlace rightPositive =>
          cases rightSign <;>
            simp [UnpackedFloat.sub, UnpackedFloat.add, UnpackedFloat.neg, Sign.apply,
              sub_eq_add_neg]
      | _ => rfl
  | _ => cases right <;> rfl

/-- A difference stands for the exact difference rounded once. -/
theorem sub_rational
    {left right : UnpackedFloat}
    (leftCanonical : Canonical left)
    (rightCanonical : Canonical right) :
    Canonical (UnpackedFloat.sub Format.binary64 left right) ∧
      rational (UnpackedFloat.sub Format.binary64 left right) =
        nearest (rational left - rational right) := by
  obtain ⟨negCanonical, negated⟩ := neg_rational rightCanonical
  rw [sub_eq_add, sub_eq_add_neg, ← negated]
  exact add_rational leftCanonical negCanonical

theorem abs_rational_finite
    (sign : Sign)
    (count : ℕ)
    (place : ℤ)
    (positive : 0 < count) :
    |rational (.finite sign count place positive)| = count * 2 ^ place := by
  have magnitude : |factor sign| = 1 := by cases sign <;> simp [factor]
  have nonneg : (0 : ℚ) ≤ count * 2 ^ place := by positivity
  rw [rational, abs_mul, magnitude, one_mul, abs_of_nonneg nonneg]

theorem abs_rational {unpacked : UnpackedFloat} (canonical : Canonical unpacked) :
    Canonical unpacked.abs ∧ rational unpacked.abs = |rational unpacked| := by
  cases unpacked with
  | zero sign => exact ⟨trivial, abs_zero.symm⟩
  | finite sign count place positive =>
      refine ⟨canonical, ?_⟩
      rw [abs_rational_finite, UnpackedFloat.abs, rational, factor, one_mul]
  | _ => exact canonical.elim

/-- The integer conversion takes the whole part of a number that is not negative. -/
theorem toInt_rational
    {unpacked : UnpackedFloat}
    (canonical : Canonical unpacked)
    (nonneg : 0 ≤ rational unpacked)
    (least greatest : ℤ) :
    unpacked.toInt least greatest = ⌊rational unpacked⌋ := by
  cases unpacked with
  | zero sign => simp [UnpackedFloat.toInt, rational]
  | finite sign count place positive =>
      have size : (0 : ℚ) < count * 2 ^ place := by positivity
      cases sign with
      | negative =>
          simp only [rational, factor] at nonneg
          linarith
      | positive =>
          have value := rational_decreaseExponent count place 0
          have low : (UnpackedFloat.decreaseExponent count place 0).2 ≤ 0 := by
            simp only [UnpackedFloat.decreaseExponent]
            omega
          simp only [UnpackedFloat.toInt, UnpackedFloat.roundToInt, UnpackedFloat.shiftToExponent,
            Sign.apply, rational, factor, one_mul]
          rw [← value]
          generalize (UnpackedFloat.decreaseExponent count place 0).1 = whole
          generalize (UnpackedFloat.decreaseExponent count place 0).2 = exponent at low
          have floor := ((denotes_exact whole).shiftRight (0 - exponent).toNat).floor
          have scale : (2 : ℚ) ^ exponent = (2 ^ (0 - exponent).toNat)⁻¹ := by
            rw [← zpow_natCast, ← zpow_neg]
            congr 1
            omega
          rw [scale, ← div_eq_mul_inv, floor]
  | _ => exact canonical.elim

/-! ## Operands that are not finite -/

theorem mul_isFinite_eq_false
    {left right : UnpackedFloat}
    (infinite : left.isFinite = false ∨ right.isFinite = false) :
    (UnpackedFloat.mul Format.binary64 left right).isFinite = false := by
  cases left <;> cases right <;> simp_all [UnpackedFloat.mul, UnpackedFloat.isFinite]

theorem div_isFinite_eq_false
    {left : UnpackedFloat}
    (infinite : left.isFinite = false)
    (right : UnpackedFloat) :
    (UnpackedFloat.div Format.binary64 left right).isFinite = false := by
  cases left <;> cases right <;> simp_all [UnpackedFloat.div, UnpackedFloat.isFinite]

/-- What is not finite is not below a finite float in magnitude. -/
theorem abs_lt_eq_false
    {left right : UnpackedFloat}
    (infinite : left.isFinite = false)
    (finite : right.isFinite = true) :
    left.abs.lt right = false := by
  cases left <;> cases right <;>
    simp_all [UnpackedFloat.abs, UnpackedFloat.lt, UnpackedFloat.compare, UnpackedFloat.isFinite]

end Binary64
end NetworkConsole
