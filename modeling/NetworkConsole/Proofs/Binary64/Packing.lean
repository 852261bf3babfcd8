import NetworkConsole.Proofs.Binary64.Operations

/-!
# Packed floats

A packed float is a sign, a biased exponent and a fraction. Packing keeps every canonical
float below `2 ^ 1024` in magnitude, and sends the others to an infinity.
-/

namespace NetworkConsole
namespace Binary64

open Float.Model
open Float.Model.UnpackedFloat
  (Sign packComponents packedInfinity unpackExponent unpackMantissa unpackSign)

/-! ## Fields -/

/-- The implicit digit is worth `2 ^ 52`. -/
theorem toNat_one_append (fraction : BitVec 52) :
    (1#1 ++ fraction).toNat = 2 ^ 52 + fraction.toNat := by
  rw [BitVec.toNat_append, ← Nat.shiftLeft_add_eq_or_of_lt fraction.isLt]
  rfl

/-- The float with a biased exponent and a fraction, where the exponent is not reserved
for what is not finite. -/
def ofFields (sign : Sign) (exponent fraction : ℕ) : UnpackedFloat :=
  if exponent = 0 then
    if positive : 0 < fraction then .finite sign fraction (-1074) positive
    else .zero sign
  else .finite sign (2 ^ 52 + fraction) (exponent - 1075) (by positivity)

theorem canonical_ofFields
    (sign : Sign)
    {exponent fraction : ℕ}
    (bounded : fraction < 2 ^ 52) :
    Canonical (ofFields sign exponent fraction) := by
  unfold ofFields
  split_ifs with subnormal positive
  · exact ⟨by omega, le_rfl, .inr rfl⟩
  · trivial
  · exact ⟨by omega, by omega, .inl (by omega)⟩

/-- A finite float is packed as an infinity, with an implicit digit or without one. -/
theorem pack_finite (sign : Sign) (count : ℕ) (place : ℤ) (positive : 0 < count) :
    UnpackedFloat.pack Format.binary64 (.finite sign count place positive) =
      if 2 ^ 11 ≤ (place + 1023 + (52 : ℕ)).toNat + 1 then packedInfinity Format.binary64 sign
      else if count.log2 + 1 = 53 then
        packComponents Format.binary64 sign (BitVec.ofNat 11 (place + 1023 + (52 : ℕ)).toNat)
          (BitVec.ofNat 52 count)
      else packComponents Format.binary64 sign 0#11 (BitVec.ofNat 52 count) := rfl

/-- Packing a float puts its fields into a word. -/
theorem pack_ofFields
    (sign : Sign)
    {exponent fraction : ℕ}
    (bounded : fraction < 2 ^ 52)
    (unreserved : exponent < 2047) :
    UnpackedFloat.pack Format.binary64 (ofFields sign exponent fraction) =
      packComponents Format.binary64 sign (BitVec.ofNat 11 exponent)
        (BitVec.ofNat 52 fraction) := by
  unfold ofFields
  split_ifs with subnormal positive
  · have size : fraction.log2 < 52 := (Nat.log2_lt positive.ne').mpr bounded
    rw [pack_finite, if_neg (by decide), if_neg (by omega), subnormal]
  · rw [subnormal, Nat.eq_zero_of_not_pos positive]
    rfl
  · have size : (2 ^ 52 + fraction).log2 = 52 :=
      (Nat.log2_eq_iff (by positivity)).mpr (by omega)
    have biased : ((exponent : ℤ) - 1075 + 1023 + (52 : ℕ)).toNat = exponent := by omega
    have implicit : BitVec.ofNat 52 (2 ^ 52 + fraction) = BitVec.ofNat 52 fraction := by
      apply BitVec.eq_of_toNat_eq
      simp
    rw [pack_finite, biased, size, if_neg (by omega), if_pos rfl, implicit]

/-- A word with an unreserved exponent unpacks to the float with its fields. -/
theorem unpack_eq_ofFields
    {word : BitVec 64}
    (unreserved : (@unpackExponent Format.binary64 word).toNat ≠ 2047) :
    UnpackedFloat.unpack Format.binary64 word =
      ofFields (Sign.ofBitVec (@unpackSign Format.binary64 word))
        (@unpackExponent Format.binary64 word).toNat
        (@unpackMantissa Format.binary64 word).toNat := by
  have reserved : @unpackExponent Format.binary64 word ≠ -1#11 :=
    fun equal => unreserved (by rw [equal]; rfl)
  have bias : (Format.binary64.exponentBias : ℤ) = 1023 := rfl
  have zero : @unpackExponent Format.binary64 word = 0#11 ↔
      (@unpackExponent Format.binary64 word).toNat = 0 := by
    simp [← BitVec.toNat_inj]
  have whole : @unpackMantissa Format.binary64 word = 0#52 ↔
      ¬ 0 < (@unpackMantissa Format.binary64 word).toNat := by
    simp [← BitVec.toNat_inj]
  unfold UnpackedFloat.unpack ofFields
  simp only [if_neg reserved, bias, zero, whole]
  split_ifs with subnormal nonzero
  · simp [subnormal]
  · rfl
  · simp [toNat_one_append]

/-- The reserved exponent is left to what is not finite. -/
theorem unreserved_of_isFinite
    {word : BitVec 64}
    (finite : (UnpackedFloat.unpack Format.binary64 word).isFinite = true) :
    (@unpackExponent Format.binary64 word).toNat ≠ 2047 := by
  intro equal
  have reserved : @unpackExponent Format.binary64 word = -1#11 :=
    BitVec.eq_of_toNat_eq equal
  unfold UnpackedFloat.unpack at finite
  simp only [if_pos reserved] at finite
  split_ifs at finite <;> simp [UnpackedFloat.isFinite] at finite

/-! ## Sizes -/

/-- The least size that is too large for a packed float. -/
def overflow : ℚ := 2 ^ (1024 : ℤ)

/-- The place of a float tells whether it is too large. -/
theorem abs_rational_lt_overflow_iff
    {sign : Sign}
    {count : ℕ}
    {place : ℤ}
    {positive : 0 < count}
    (canonical : Canonical (.finite sign count place positive)) :
    |rational (.finite sign count place positive)| < overflow ↔ place ≤ 971 := by
  obtain ⟨bounded, -, full⟩ := canonical
  rw [abs_rational_finite, overflow]
  constructor
  · intro small
    by_contra high
    have filled : (2 : ℚ) ^ 52 ≤ count := by exact_mod_cast full.resolve_right (by omega)
    apply absurd small
    rw [not_lt]
    calc (2 : ℚ) ^ (1024 : ℤ) ≤ 2 ^ (52 + place) := zpow_le_zpow_right₀ (by norm_num) (by omega)
      _ = 2 ^ 52 * 2 ^ place := by
        rw [zpow_add₀ two_ne_zero]
        norm_cast
      _ ≤ count * 2 ^ place := mul_le_mul_of_nonneg_right filled (by positivity)
  · intro low
    have below : (count : ℚ) < 2 ^ 53 := by exact_mod_cast bounded
    calc (count : ℚ) * 2 ^ place < 2 ^ 53 * 2 ^ place :=
        mul_lt_mul_of_pos_right below (by positivity)
      _ = 2 ^ (53 + place) := by
        rw [zpow_add₀ two_ne_zero]
        norm_cast
      _ ≤ 2 ^ (1024 : ℤ) := zpow_le_zpow_right₀ (by norm_num) (by omega)

/-- A canonical float that is not too large has fields. -/
theorem exists_fields
    {unpacked : UnpackedFloat}
    (canonical : Canonical unpacked)
    (small : |rational unpacked| < overflow) :
    ∃ sign exponent fraction, exponent < 2047 ∧ fraction < 2 ^ 52 ∧
      unpacked = ofFields sign exponent fraction := by
  cases unpacked with
  | zero sign => exact ⟨sign, 0, 0, by norm_num, by norm_num, rfl⟩
  | finite sign count place positive =>
      have low := (abs_rational_lt_overflow_iff canonical).mp small
      obtain ⟨bounded, least, full⟩ := canonical
      by_cases normal : 2 ^ 52 ≤ count
      · obtain ⟨fraction, rfl⟩ := Nat.exists_eq_add_of_le normal
        have biased : ((place + 1075).toNat : ℤ) - 1075 = place := by omega
        refine ⟨sign, (place + 1075).toNat, fraction, by omega, by omega, ?_⟩
        unfold ofFields
        rw [if_neg (by omega)]
        simp only [biased]
      · have subnormal : place = -1074 := full.resolve_left normal
        refine ⟨sign, 0, count, by norm_num, by omega, ?_⟩
        simp [ofFields, positive, subnormal]
  | _ => exact canonical.elim

/-! ## Packing and unpacking -/

/-- Unpacking inverts packing where the float is not too large. -/
theorem unpack_pack
    {unpacked : UnpackedFloat}
    (canonical : Canonical unpacked)
    (small : |rational unpacked| < overflow) :
    UnpackedFloat.unpack Format.binary64 (UnpackedFloat.pack Format.binary64 unpacked) =
      unpacked := by
  obtain ⟨sign, exponent, fraction, unreserved, bounded, rfl⟩ := exists_fields canonical small
  have exponentMod : exponent % 2 ^ 11 = exponent := Nat.mod_eq_of_lt (by omega)
  have fractionMod : fraction % 2 ^ 52 = fraction := Nat.mod_eq_of_lt bounded
  rw [pack_ofFields sign bounded unreserved, unpack_eq_ofFields]
  · rw [UnpackedFloat.unpackSign_packComponents, UnpackedFloat.unpackExponent_packComponents,
      UnpackedFloat.unpackMantissa_packComponents, Sign.ofBitVec_toBitVec, BitVec.toNat_ofNat,
      BitVec.toNat_ofNat, exponentMod, fractionMod]
  · rw [UnpackedFloat.unpackExponent_packComponents, BitVec.toNat_ofNat, exponentMod]
    omega

/-- Packing inverts unpacking where the float is finite. -/
theorem pack_unpack
    {word : BitVec 64}
    (finite : (UnpackedFloat.unpack Format.binary64 word).isFinite = true) :
    UnpackedFloat.pack Format.binary64 (UnpackedFloat.unpack Format.binary64 word) = word := by
  rw [UnpackedFloat.pack_unpack, if_neg]
  intro reserved
  have exponent := (of_decide_eq_true reserved).1
  exact unreserved_of_isFinite finite (by rw [exponent]; rfl)

/-- A finite float unpacks to a canonical one that is not too large. -/
theorem canonical_unpack
    {word : BitVec 64}
    (finite : (UnpackedFloat.unpack Format.binary64 word).isFinite = true) :
    Canonical (UnpackedFloat.unpack Format.binary64 word) := by
  rw [unpack_eq_ofFields (unreserved_of_isFinite finite)]
  exact canonical_ofFields _ (@unpackMantissa Format.binary64 word).isLt

/-- A float that is too large is packed as the infinity of its sign. -/
theorem unpack_pack_of_large
    {unpacked : UnpackedFloat}
    (canonical : Canonical unpacked)
    (large : overflow ≤ |rational unpacked|) :
    ∃ sign, UnpackedFloat.unpack Format.binary64 (UnpackedFloat.pack Format.binary64 unpacked) =
        .infinity sign ∧
      rational unpacked = factor sign * |rational unpacked| := by
  cases unpacked with
  | zero sign =>
      have : (0 : ℚ) < overflow := by
        unfold overflow
        positivity
      simp [rational, this.not_ge] at large
  | finite sign count place positive =>
      have high : ¬ place ≤ 971 := fun low =>
        absurd ((abs_rational_lt_overflow_iff canonical).mpr low) (not_lt.mpr large)
      rw [pack_finite, if_pos (by omega)]
      refine ⟨sign, by cases sign <;> rfl, ?_⟩
      rw [abs_rational_finite, rational]
  | _ => exact canonical.elim

/-- A finite float is not too large. -/
theorem abs_rational_unpack_lt_overflow
    {word : BitVec 64}
    (finite : (UnpackedFloat.unpack Format.binary64 word).isFinite = true) :
    |rational (UnpackedFloat.unpack Format.binary64 word)| < overflow := by
  by_contra large
  obtain ⟨sign, infinite, -⟩ := unpack_pack_of_large (canonical_unpack finite) (not_lt.mp large)
  rw [pack_unpack finite] at infinite
  simp [infinite, UnpackedFloat.isFinite] at finite

end Binary64
end NetworkConsole
