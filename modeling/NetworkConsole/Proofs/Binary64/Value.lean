import NetworkConsole.Proofs.Binary64.Packing

/-!
# Values of floats

Every finite float stands for a rational number. Arithmetic on finite floats rounds the
exact result once, and gives an infinity only where the rounded result is too large.
-/

namespace NetworkConsole
namespace Binary64

open Float.Model

/-- The number that a float stands for, zero if it is not finite. -/
def value (x : Float) : ℚ := rational x.toModel.unpack

theorem isFinite_eq (x : Float) : x.isFinite = x.toModel.unpack.isFinite := rfl

theorem canonical_of_isFinite {x : Float} (finite : x.isFinite = true) :
    Canonical x.toModel.unpack :=
  canonical_unpack finite

theorem abs_value_lt_overflow {x : Float} (finite : x.isFinite = true) :
    |value x| < overflow :=
  abs_rational_unpack_lt_overflow finite

/-- Rounding keeps the value of a float. -/
theorem representable_value {x : Float} (finite : x.isFinite = true) :
    Representable (value x) := by
  have canonical := canonical_of_isFinite finite
  unfold value
  cases unpacked : x.toModel.unpack with
  | zero => exact ⟨0, 0, by norm_num, by norm_num, by simp [rational]⟩
  | finite sign count place positive =>
      rw [unpacked] at canonical
      obtain ⟨bounded, least, -⟩ := canonical
      have digits : (count : ℤ) < 2 ^ 53 := by exact_mod_cast bounded
      cases sign with
      | positive => exact ⟨count, place, by simpa using digits, least, by simp [rational, factor]⟩
      | negative => exact ⟨-count, place, by simpa using digits, least, by simp [rational, factor]⟩
  | _ =>
      rw [unpacked] at canonical
      exact canonical.elim

/-! ## Rounded results -/

/-- A float is the result of rounding an exact number. -/
def RoundsTo (q : ℚ) (x : Float) : Prop :=
  ∃ unpacked, Canonical unpacked ∧ rational unpacked = nearest q ∧
    x = Float.ofModel (Float.Model.pack unpacked)

namespace RoundsTo

variable {q : ℚ} {x : Float}

theorem unpack_eq
    (rounds : RoundsTo q x)
    (small : |nearest q| < overflow) :
    Canonical x.toModel.unpack ∧ rational x.toModel.unpack = nearest q := by
  obtain ⟨unpacked, canonical, exact, rfl⟩ := rounds
  have packed := unpack_pack canonical (by rwa [exact])
  have same : (Float.ofModel (Float.Model.pack unpacked)).toModel.unpack = unpacked := packed
  rw [same]
  exact ⟨canonical, exact⟩

/-- The result is finite unless the rounded number is too large. -/
theorem isFinite_iff (rounds : RoundsTo q x) : x.isFinite = true ↔ |nearest q| < overflow := by
  constructor
  · obtain ⟨unpacked, canonical, exact, rfl⟩ := rounds
    intro finite
    by_contra large
    obtain ⟨sign, infinite, -⟩ :=
      unpack_pack_of_large canonical (by rw [exact]; exact not_lt.mp large)
    have unpacked_eq : (Float.ofModel (Float.Model.pack unpacked)).toModel.unpack =
      .infinity sign := infinite
    rw [isFinite_eq, unpacked_eq] at finite
    exact absurd finite (by simp [UnpackedFloat.isFinite])
  · intro small
    obtain ⟨canonical, -⟩ := rounds.unpack_eq small
    rw [isFinite_eq]
    revert canonical
    cases x.toModel.unpack <;> simp [Canonical, UnpackedFloat.isFinite]

/-- A finite result stands for the rounded number. -/
theorem value_eq (rounds : RoundsTo q x) (finite : x.isFinite = true) : value x = nearest q :=
  (rounds.unpack_eq (rounds.isFinite_iff.mp finite)).2

/-- A number within a bound that is not too large gives a finite result. -/
theorem isFinite_of_le
    (rounds : RoundsTo q x)
    {bound : ℚ}
    (representable : Representable bound)
    (small : bound < overflow)
    (below : |q| ≤ bound) :
    x.isFinite = true := by
  rw [rounds.isFinite_iff]
  exact (abs_nearest_le representable below).trans_lt small

/-- Rounding keeps the order. -/
theorem mono
    {p q : ℚ}
    {x y : Float}
    (lower : RoundsTo p x)
    (upper : RoundsTo q y)
    (lowerFinite : x.isFinite = true)
    (upperFinite : y.isFinite = true)
    (ordered : p ≤ q) :
    value x ≤ value y := by
  rw [lower.value_eq lowerFinite, upper.value_eq upperFinite]
  exact nearest_mono ordered

end RoundsTo

theorem mul_roundsTo {x y : Float} (left : x.isFinite = true) (right : y.isFinite = true) :
    RoundsTo (value x * value y) (x * y) := by
  obtain ⟨canonical, exact⟩ :=
    mul_rational (canonical_of_isFinite left) (canonical_of_isFinite right)
  exact ⟨_, canonical, exact, rfl⟩

theorem add_roundsTo {x y : Float} (left : x.isFinite = true) (right : y.isFinite = true) :
    RoundsTo (value x + value y) (x + y) := by
  obtain ⟨canonical, exact⟩ :=
    add_rational (canonical_of_isFinite left) (canonical_of_isFinite right)
  exact ⟨_, canonical, exact, rfl⟩

theorem sub_roundsTo {x y : Float} (left : x.isFinite = true) (right : y.isFinite = true) :
    RoundsTo (value x - value y) (x - y) := by
  obtain ⟨canonical, exact⟩ :=
    sub_rational (canonical_of_isFinite left) (canonical_of_isFinite right)
  exact ⟨_, canonical, exact, rfl⟩

theorem div_roundsTo
    {x y : Float}
    (left : x.isFinite = true)
    (right : y.isFinite = true)
    (nonzero : value y ≠ 0) :
    RoundsTo (value x / value y) (x / y) := by
  obtain ⟨canonical, exact⟩ :=
    div_rational (canonical_of_isFinite left) (canonical_of_isFinite right) nonzero
  exact ⟨_, canonical, exact, rfl⟩

/-! ## Whole numbers -/

theorem representable_natCast {n : ℕ} (bounded : n ≤ 2 ^ 53) : Representable n := by
  rcases bounded.lt_or_eq with below | rfl
  · exact ⟨n, 0, by simpa using mod_cast below, by norm_num, by simp⟩
  · exact_mod_cast representable_two_zpow 53 (by norm_num)

theorem natCast_lt_overflow {n : ℕ} (bounded : n ≤ 2 ^ 53) : (n : ℚ) < overflow := by
  have below : (n : ℚ) ≤ 2 ^ (53 : ℤ) := by exact_mod_cast bounded
  exact below.trans_lt (zpow_lt_zpow_right₀ (by norm_num) (by norm_num))

/-- A result that rounds a small natural number is that number. -/
theorem RoundsTo.value_eq_natCast
    {n : ℕ}
    {x : Float}
    (rounds : RoundsTo n x)
    (bounded : n ≤ 2 ^ 53) :
    x.isFinite = true ∧ value x = n := by
  have finite := rounds.isFinite_of_le (representable_natCast bounded) (natCast_lt_overflow bounded)
    (abs_of_nonneg (by positivity)).le
  exact ⟨finite, (rounds.value_eq finite).trans (representable_natCast bounded).nearest_eq⟩

theorem representable_intCast {n : ℤ} (bounded : |n| < 2 ^ 53) : Representable n :=
  ⟨n, 0, bounded, by norm_num, by simp⟩

/-- A result that rounds a small integer is that integer. -/
theorem RoundsTo.value_eq_intCast
    {n : ℤ}
    {x : Float}
    (rounds : RoundsTo n x)
    (bounded : |n| < 2 ^ 53) :
    x.isFinite = true ∧ value x = n := by
  have below : |(n : ℚ)| ≤ (2 ^ 53 : ℕ) := by exact_mod_cast bounded.le
  have finite := rounds.isFinite_of_le (representable_natCast le_rfl) (natCast_lt_overflow le_rfl)
    below
  exact ⟨finite, (rounds.value_eq finite).trans (representable_intCast bounded).nearest_eq⟩

theorem toFloat_roundsTo (n : UInt64) : RoundsTo n.toNat n.toFloat := by
  obtain ⟨canonical, exact⟩ := normalize_rational n.toNat 0 .positive
  refine ⟨_, canonical, ?_, rfl⟩
  simpa using exact

theorem value_one : value (Float.ofBits 0x3FF0000000000000) = 1 := by
  have unpacked : (Float.ofBits 0x3FF0000000000000).toModel.unpack =
      .finite .positive (2 ^ 52) (-52) (by norm_num) := rfl
  rw [value, unpacked, rational, factor]
  norm_num

theorem ofNat_roundsTo {n : ℕ} (bounded : n < 2 ^ 53) : RoundsTo n (Float.ofNat n) := by
  have size : n.toUInt64.toNat = n := UInt64.toNat_ofNat_of_lt' (bounded.trans (by norm_num))
  have rounds := toFloat_roundsTo n.toUInt64
  rw [size] at rounds
  obtain ⟨finite, exact⟩ := rounds.value_eq_natCast bounded.le
  have product := mul_roundsTo finite (y := Float.ofBits 0x3FF0000000000000) rfl
  rw [exact, value_one, mul_one] at product
  have literal : Float.ofNat n = n.toUInt64.toFloat * Float.ofBits 0x3FF0000000000000 := by
    change Float.ofScientific n false 0 = _
    rw [Float.ofScientific, dif_pos ⟨bounded, by norm_num⟩]
    rfl
  rwa [literal]

theorem isFinite_ofNat {n : ℕ} (bounded : n < 2 ^ 53) : (Float.ofNat n).isFinite = true :=
  ((ofNat_roundsTo bounded).value_eq_natCast bounded.le).1

theorem value_ofNat {n : ℕ} (bounded : n < 2 ^ 53) : value (Float.ofNat n) = n :=
  ((ofNat_roundsTo bounded).value_eq_natCast bounded.le).2

/-! ## Order -/

theorem compare_value {x y : Float} (left : x.isFinite = true) (right : y.isFinite = true) :
    x.toModel.unpack.compare y.toModel.unpack = some (compare (value x) (value y)) :=
  compare_rational (canonical_of_isFinite left) (canonical_of_isFinite right)

/-- Finite floats are ordered as their values. -/
theorem lt_iff {x y : Float} (left : x.isFinite = true) (right : y.isFinite = true) :
    x < y ↔ value x < value y := by
  apply decide_eq_true_iff.trans
  change UnpackedFloat.lt x.toModel.unpack y.toModel.unpack = true ↔ _
  rw [UnpackedFloat.lt, compare_value left right, ← compare_lt_iff_lt]
  simp

theorem le_iff {x y : Float} (left : x.isFinite = true) (right : y.isFinite = true) :
    x ≤ y ↔ value x ≤ value y := by
  apply decide_eq_true_iff.trans
  change UnpackedFloat.le x.toModel.unpack y.toModel.unpack = true ↔ _
  rw [UnpackedFloat.le, compare_value left right, ← compare_le_iff_le]
  simp [Ordering.isLE_iff_ne_gt]

theorem beq_iff {x y : Float} (left : x.isFinite = true) (right : y.isFinite = true) :
    (x == y) = true ↔ value x = value y := by
  change UnpackedFloat.beq x.toModel.unpack y.toModel.unpack = true ↔ _
  rw [UnpackedFloat.beq, compare_value left right, ← compare_eq_iff_eq]
  simp

theorem bne_iff {x y : Float} (left : x.isFinite = true) (right : y.isFinite = true) :
    (x != y) = true ↔ value x ≠ value y := by
  rw [bne, Bool.not_eq_true', ← Bool.not_eq_true, beq_iff left right]

/-! ## Signs -/

/-- A canonical float that is not too large is kept by packing. -/
theorem unpack_ofModel_pack
    {unpacked : UnpackedFloat}
    (canonical : Canonical unpacked)
    (small : |rational unpacked| < overflow) :
    (Float.ofModel (Float.Model.pack unpacked)).toModel.unpack = unpacked :=
  unpack_pack canonical small

theorem isFinite_of_canonical {x : Float} (canonical : Canonical x.toModel.unpack) :
    x.isFinite = true := by
  rw [isFinite_eq]
  revert canonical
  cases x.toModel.unpack <;> simp [Canonical, UnpackedFloat.isFinite]

theorem neg_value {x : Float} (finite : x.isFinite = true) :
    (-x).isFinite = true ∧ value (-x) = -value x := by
  obtain ⟨canonical, exact⟩ := neg_rational (canonical_of_isFinite finite)
  have unpacked : (-x).toModel.unpack = x.toModel.unpack.neg :=
    unpack_ofModel_pack canonical (by rw [exact, abs_neg]; exact abs_value_lt_overflow finite)
  exact ⟨isFinite_of_canonical (by rwa [unpacked]), by rw [value, unpacked, exact, value]⟩

theorem abs_value {x : Float} (finite : x.isFinite = true) :
    x.abs.isFinite = true ∧ value x.abs = |value x| := by
  obtain ⟨canonical, exact⟩ := abs_rational (canonical_of_isFinite finite)
  have unpacked : x.abs.toModel.unpack = x.toModel.unpack.abs :=
    unpack_ofModel_pack canonical (by rw [exact, abs_abs]; exact abs_value_lt_overflow finite)
  exact ⟨isFinite_of_canonical (by rwa [unpacked]), by rw [value, unpacked, exact, value]⟩

/-! ## Whole parts -/

/-- The conversion to an integer takes the whole part. -/
theorem toUInt64_toNat
    {x : Float}
    (finite : x.isFinite = true)
    (nonneg : 0 ≤ value x)
    (bounded : value x < 2 ^ 64) :
    (x.toUInt64.toNat : ℤ) = ⌊value x⌋ := by
  have whole : x.toModel.unpack.toInt 0 (UInt64.size - 1) = ⌊value x⌋ :=
    toInt_rational (canonical_of_isFinite finite) nonneg _ _
  have floorNonneg : 0 ≤ ⌊value x⌋ := Int.floor_nonneg.mpr nonneg
  have floorBounded : ⌊value x⌋ < 2 ^ 64 := by
    rw [Int.floor_lt]
    exact_mod_cast bounded
  change ((UInt64.ofNatClamp (x.toModel.unpack.toInt 0 (UInt64.size - 1)).toNat).toNat : ℤ) = _
  rw [whole, UInt64.toNat_ofNatClamp_of_lt]
  · omega
  · have size : UInt64.size = 2 ^ 64 := rfl
    omega

/-- Finite floats of the same value are the same, unless they are zeros. -/
theorem eq_of_value_eq
    {x y : Float}
    (left : x.isFinite = true)
    (right : y.isFinite = true)
    (nonzero : value x ≠ 0)
    (same : value x = value y) :
    x = y := by
  have unpacked : x.toModel.unpack = y.toModel.unpack :=
    eq_of_rational_eq (canonical_of_isFinite left) (canonical_of_isFinite right) nonzero same
  calc x = Float.ofModel (Float.Model.pack x.toModel.unpack) := x.ofBits_toBits.symm
    _ = Float.ofModel (Float.Model.pack y.toModel.unpack) := by rw [unpacked]
    _ = y := y.ofBits_toBits

/-! ## Operands of finite results -/

/-- Packing keeps what is not finite. -/
theorem unpack_ofModel_pack_of_infinite
    {unpacked : UnpackedFloat}
    (infinite : unpacked.isFinite = false) :
    (Float.ofModel (Float.Model.pack unpacked)).toModel.unpack = unpacked := by
  cases unpacked with
  | infinity sign => cases sign <;> rfl
  | notANumber => rfl
  | zero | finite => simp [UnpackedFloat.isFinite] at infinite

theorem isFinite_ofModel_pack {unpacked : UnpackedFloat} (infinite : unpacked.isFinite = false) :
    (Float.ofModel (Float.Model.pack unpacked)).isFinite = false := by
  rw [isFinite_eq, unpack_ofModel_pack_of_infinite infinite, infinite]

/-- A product is finite only if its factors are. -/
theorem isFinite_of_mul {x y : Float} (finite : (x * y).isFinite = true) :
    x.isFinite = true ∧ y.isFinite = true := by
  by_contra infinite
  rw [not_and_or, Bool.not_eq_true, Bool.not_eq_true] at infinite
  have product : (x * y).isFinite = false :=
    isFinite_ofModel_pack (mul_isFinite_eq_false infinite)
  simp [product] at finite

/-- A quotient is finite only if its dividend is. -/
theorem isFinite_of_div {x y : Float} (finite : (x / y).isFinite = true) :
    x.isFinite = true := by
  by_contra infinite
  have quotient : (x / y).isFinite = false :=
    isFinite_ofModel_pack (div_isFinite_eq_false (Bool.not_eq_true _ ▸ infinite) _)
  simp [quotient] at finite

/-- What is smaller in magnitude than a finite float is finite. -/
theorem isFinite_of_abs_lt
    {x y : Float}
    (finite : y.isFinite = true)
    (below : x.abs < y) :
    x.isFinite = true := by
  by_contra infinite
  rw [Bool.not_eq_true, isFinite_eq] at infinite
  have order : UnpackedFloat.lt x.abs.toModel.unpack y.toModel.unpack = true :=
    decide_eq_true_iff.mp below
  have unpacked : x.abs.toModel.unpack = x.toModel.unpack.abs := by
    apply unpack_ofModel_pack_of_infinite
    revert infinite
    cases x.toModel.unpack <;> simp [UnpackedFloat.abs, UnpackedFloat.isFinite]
  rw [unpacked, abs_lt_eq_false infinite finite] at order
  exact absurd order (by decide)

end Binary64
end NetworkConsole
