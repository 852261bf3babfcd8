import NetworkConsole.Number.Notation
import NetworkConsole.Proofs.Binary64.Saturation
import NetworkConsole.Proofs.Number.Rounding

/-!
# Written forms of whole numbers

Of all whole numbers only one reads back as a given float below `2 ^ 53`. The shortest
decimal of such a float is that number without the zeros at its end, and the plain form
has the number's digits and nothing else.
-/

namespace NetworkConsole
namespace Number

open Binary64
open Float.Model.UnpackedFloat (unpackExponent unpackMantissa)

/-! ## Significands -/

/-- Decoding reads the fields of a float. -/
theorem abs_value_eq_decode {x : Float} (finite : x.isFinite = true) :
    |value x| = (decode x).1 * 2 ^ (decode x).2 ∧ (decode x).1 < 2 ^ 53 ∧
      (2 ^ 52 ≤ (decode x).1 ∨ (decode x).2 = -1074) := by
  have exponent : (@unpackExponent Float.Model.Format.binary64 x.toBits.toBitVec).toNat =
      x.toBits.toNat / 2 ^ 52 % 2 ^ 11 := by
    simp [unpackExponent, Nat.shiftRight_eq_div_pow]
  have fraction : (@unpackMantissa Float.Model.Format.binary64 x.toBits.toBitVec).toNat =
      x.toBits.toNat % 2 ^ 52 := by
    simp [unpackMantissa]
  have fields : x.toModel.unpack = ofFields _
      (@unpackExponent Float.Model.Format.binary64 x.toBits.toBitVec).toNat
      (@unpackMantissa Float.Model.Format.binary64 x.toBits.toBitVec).toNat :=
    unpack_eq_ofFields (unreserved_of_isFinite finite)
  rw [exponent, fraction] at fields
  have bounded : x.toBits.toNat % 2 ^ 52 < 2 ^ 52 := Nat.mod_lt _ (by norm_num)
  rw [value, fields, decode, ofFields]
  simp only [Nat.pow_eq]
  split_ifs with subnormal positive
  · rw [abs_rational_finite]
    exact ⟨rfl, by omega, .inr rfl⟩
  · rw [Nat.eq_zero_of_not_pos positive]
    exact ⟨by simp [rational], by norm_num, .inr rfl⟩
  · rw [abs_rational_finite]
    exact ⟨rfl, by omega, .inl (by omega)⟩

/-- A whole number below `2 ^ 53` is written with no more than 52 binary places. -/
theorem exists_decode_eq
    {x : Float}
    {n : ℕ}
    (finite : x.isFinite = true)
    (whole : |value x| = n)
    (positive : 0 < n)
    (bounded : n < 2 ^ 53) :
    ∃ places : ℕ, decode x = (n * 2 ^ places, -(places : ℤ)) := by
  obtain ⟨exact, below, full⟩ := abs_value_eq_decode finite
  rw [whole] at exact
  generalize decode x = decoded at exact below full ⊢
  obtain ⟨count, place⟩ := decoded
  dsimp only at exact below full
  have low : place ≤ 0 := by
    by_contra high
    have filled : (2 : ℚ) ^ 52 ≤ count := by exact_mod_cast full.resolve_right (by omega)
    have scale : (2 : ℚ) ^ (1 : ℤ) ≤ 2 ^ place :=
      zpow_le_zpow_right₀ (by norm_num) (by omega)
    have large : (2 : ℚ) ^ 53 ≤ n := by
      calc (2 : ℚ) ^ 53 = (2 : ℚ) ^ 52 * (2 : ℚ) ^ (1 : ℤ) := by norm_num
        _ ≤ (count : ℚ) * 2 ^ place := mul_le_mul filled scale (by norm_num) (by positivity)
        _ = n := exact.symm
    exact absurd (show 2 ^ 53 ≤ n by exact_mod_cast large) (by omega)
  obtain ⟨places, rfl⟩ := Int.exists_eq_neg_ofNat low
  refine ⟨places, Prod.ext ?_ rfl⟩
  rw [zpow_neg, zpow_natCast, ← div_eq_mul_inv, eq_div_iff (by positivity)] at exact
  exact_mod_cast exact.symm

/-! ## Shortest decimals -/

section Shortest

variable {n : ℕ} (places : ℕ) (positive : 0 < n)
include positive

/-- Of the whole numbers only the number itself lies in its interval. -/
theorem contains_around_iff (count zeros : ℕ) :
    (ReadingInterval.around (n * 2 ^ places) (-(places : ℤ))).contains count zeros = true ↔
      count * 10 ^ zeros = n := by
  have scaleUp : (-(places : ℤ) - 2).toNat = 0 := by omega
  have scaleDown : (2 - -(places : ℤ)).toNat = places + 2 := by omega
  have unit : (-(zeros : ℤ)).toNat = 0 := by omega
  have scale : 0 < 2 ^ places := by positivity
  have same : count * 10 ^ zeros = n ↔ 2 ^ places * (count * 10 ^ zeros) = n * 2 ^ places := by
    rw [Nat.mul_comm n, Nat.mul_right_inj scale.ne']
  have point : count * 10 ^ zeros * 2 ^ (places + 2) = 4 * (2 ^ places * (count * 10 ^ zeros)) := by
    ring
  have size : 0 < n * 2 ^ places := by positivity
  rw [same]
  unfold ReadingInterval.contains ReadingInterval.around
  simp only [Nat.pow_eq, scaleUp, scaleDown, unit, Int.toNat_natCast, point]
  generalize 2 ^ places * (count * 10 ^ zeros) = counted
  generalize n * 2 ^ places = significand at size ⊢
  split_ifs <;> simp only [decide_eq_true_eq] <;> omega

/-- The nearer neighbour of a whole number on a coarse grid is the number, if it lies on the
grid. -/
theorem candidate?_around (tie : Tie) (zeros : ℕ) :
    (ReadingInterval.around (n * 2 ^ places) (-(places : ℤ))).candidate? tie zeros =
      if 10 ^ zeros ∣ n then some (n / 10 ^ zeros) else none := by
  have lower : ((ReadingInterval.around (n * 2 ^ places) (-(places : ℤ))).below zeros).1 =
      n / 10 ^ zeros := by
    have scaleUp : (-(places : ℤ) - 2).toNat = 0 := by omega
    have scaleDown : (2 - -(places : ℤ)).toNat = places + 2 := by omega
    have unit : (-(zeros : ℤ)).toNat = 0 := by omega
    have numerator : 4 * (n * 2 ^ places) * 2 ^ 0 * 10 ^ 0 = 2 ^ (places + 2) * n := by ring
    simp only [ReadingInterval.below, ReadingInterval.around, Nat.pow_eq, scaleUp, scaleDown, unit,
      Int.toNat_natCast, numerator]
    exact Nat.mul_div_mul_left n _ (by positivity)
  have above : (ReadingInterval.around (n * 2 ^ places) (-(places : ℤ))).contains
      (n / 10 ^ zeros + 1) zeros = false := by
    rw [← Bool.not_eq_true, contains_around_iff places positive]
    have next := Nat.lt_mul_div_succ n (b := 10 ^ zeros) (by positivity)
    rw [mul_comm] at next
    exact next.ne'
  have exact := contains_around_iff places positive (n / 10 ^ zeros) zeros
  by_cases divides : 10 ^ zeros ∣ n
  · have inside := exact.mpr (Nat.div_mul_cancel divides)
    simp only [ReadingInterval.candidate?, lower, above, inside, if_pos divides]
  · have outside :=
      Bool.eq_false_iff.mpr (mt exact.mp (mt (Nat.dvd_iff_div_mul_eq _ _).mpr divides))
    simp only [ReadingInterval.candidate?, lower, above, outside, if_neg divides]

/-- The search ends at the latest at the grid of whole numbers. -/
theorem exists_search_around (tie : Tie) {attempts zeros : ℕ} (enough : zeros < attempts) :
    ∃ count kept : ℕ,
      (ReadingInterval.around (n * 2 ^ places) (-(places : ℤ))).search tie attempts zeros =
        ⟨count, kept⟩ ∧ count * 10 ^ kept = n := by
  induction attempts generalizing zeros with
  | zero => omega
  | succ attempts inductionHypothesis =>
      unfold ReadingInterval.search
      rw [candidate?_around places positive]
      split_ifs with divides
      · exact ⟨n / 10 ^ zeros, zeros, rfl, Nat.div_mul_cancel divides⟩
      · cases zeros with
        | zero => exact absurd (one_dvd n) divides
        | succ fewer =>
            have next : ((fewer + 1 : ℕ) : ℤ) - 1 = fewer := by omega
            simp only [next]
            exact inductionHypothesis (by omega)

end Shortest

/-- The shortest decimal of a whole number is the number itself. -/
theorem exists_shortest_eq
    {x : Float}
    {n : ℕ}
    (finite : x.isFinite = true)
    (whole : |value x| = n)
    (positive : 0 < n)
    (bounded : n < 2 ^ 53)
    (tie : Tie) :
    ∃ count kept : ℕ, shortest tie x = ⟨count, kept⟩ ∧ count * 10 ^ kept = n := by
  obtain ⟨places, decoded⟩ := exists_decode_eq finite whole positive bounded
  have nonzero : n * 2 ^ places ≠ 0 := by positivity
  have digits : (n * 2 ^ places).log2 = n.log2 + places := by
    rw [Nat.log2_eq_iff nonzero, Nat.add_right_comm, pow_add, pow_add]
    exact ⟨Nat.mul_le_mul_right _ (Nat.log2_self_le positive.ne'),
      Nat.mul_lt_mul_of_pos_right Nat.lt_log2_self (by positivity)⟩
  have size : n.log2 < 53 := (Nat.log2_lt positive.ne').mpr bounded
  obtain ⟨zeros, start⟩ : ∃ zeros : ℕ,
      decimalExponentAbove (n * 2 ^ places) (-(places : ℤ)) = zeros :=
    Int.eq_ofNat_of_zero_le (by unfold decimalExponentAbove; omega)
  have enough : zeros < 24 := by
    unfold decimalExponentAbove at start
    omega
  unfold shortest
  simp only [decoded, if_neg nonzero, start]
  exact exists_search_around places positive tie enough

/-! ## Digits -/

/-- Zeros at the end multiply by a power of ten. -/
theorem digitText_append_zeros {count : ℕ} (positive : 0 < count) (kept : ℕ) :
    digitText count ++ zeros kept = digitText (count * 10 ^ kept) := by
  induction kept with
  | zero => simp [zeros]
  | succ kept inductionHypothesis =>
      have zero : digitText 0 = ['0'] := rfl
      have next := Nat.toDigits_append_toDigits (b := 10) (n := count * 10 ^ kept) (d := 0)
        (by norm_num) (by positivity) (by norm_num)
      have product : 10 * (count * 10 ^ kept) + 0 = count * 10 ^ (kept + 1) := by ring
      rw [product] at next
      rw [zeros, List.replicate_succ', ← List.append_assoc, ← zeros, inductionHypothesis, ← zero]
      exact next

/-- The plain form of a whole number has its decimal digits. -/
theorem plain_ofNat {n : ℕ} (positive : 0 < n) (bounded : n < 2 ^ 53) :
    plain (Float.ofNat n) = toString n := by
  have finite := isFinite_ofNat bounded
  have exact := value_ofNat bounded
  have size : (0 : ℚ) < n := by exact_mod_cast positive
  have unsigned : isNegative (Float.ofNat n) = false := by
    rw [← Bool.not_eq_true, isNegative_iff finite (by rw [exact]; exact size.ne'), exact]
    exact size.not_gt
  obtain ⟨count, kept, decimal, product⟩ := exists_shortest_eq finite
    (by rw [exact, abs_of_pos size]) positive bounded .up
  have some : 0 < count := Nat.pos_of_ne_zero fun none => by simp [none] at product; omega
  unfold plain signed positional
  simp only [isNaN_of_isFinite finite, isInf_of_isFinite finite, decimal, unsigned, some.ne',
    Int.natCast_nonneg, Int.toNat_natCast, digitText_append_zeros some, product,
    Bool.false_eq_true, ↓reduceIte]
  rfl

end Number
end NetworkConsole
