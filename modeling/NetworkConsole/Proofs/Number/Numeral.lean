import Mathlib.Data.List.Induction
import NetworkConsole.Number.Numeral
import NetworkConsole.Proofs.Binary64.Decimal

/-!
# Plain decimal numerals

A plain numeral has an optional minus sign and digits with at most one point among or
around them. It is read as the float nearest to the decimal that it writes.
-/

namespace NetworkConsole.Number

/-- A run of characters that pass a test is cut off where one that does not follows. -/
theorem span_append
    {accepts : Char → Bool}
    {taken rest : List Char}
    (accepted : ∀ character ∈ taken, accepts character = true)
    (stopped : ∀ character ∈ rest.head?, accepts character = false) :
    (taken ++ rest).takeWhile accepts = taken ∧ (taken ++ rest).dropWhile accepts = rest := by
  rw [List.takeWhile_append_of_pos accepted, List.dropWhile_append_of_pos accepted]
  cases rest with
  | nil => simp
  | cons character rest => simp [stopped character rfl]

/-! ## Digits -/

/-- Digits that follow others leave the value of these one place higher for each of them. -/
theorem digitsValue_append (first second : List Char) :
    digitsValue (first ++ second) =
      digitsValue first * 10 ^ second.length + digitsValue second := by
  induction second using List.reverseRecOn with
  | nil => simp [digitsValue]
  | append_singleton second digit inductionHypothesis =>
      unfold digitsValue at inductionHypothesis ⊢
      rw [← List.append_assoc, List.foldl_concat, inductionHypothesis, List.foldl_concat,
        List.length_append, List.length_singleton, pow_succ]
      ring

theorem le_foldl_digits (digits : List Char) (value : Nat) :
    value ≤ digits.foldl
      (fun value digit => 10 * value + (digit.toNat - '0'.toNat)) value := by
  induction digits generalizing value with
  | nil => exact le_rfl
  | cons digit digits inductionHypothesis =>
      have later := inductionHypothesis (10 * value + (digit.toNat - '0'.toNat))
      rw [List.foldl_cons]
      omega

theorem foldlM_appendDigit
    {digits : List Char}
    (isDigit : ∀ digit ∈ digits, digit.isDigit = true)
    {limit value : Nat}
    (small : digits.foldl
      (fun value digit => 10 * value + (digit.toNat - '0'.toNat)) value < limit) :
    digits.foldlM (appendDigit limit) value =
      .ok (digits.foldl (fun value digit => 10 * value + (digit.toNat - '0'.toNat)) value) := by
  induction digits generalizing value with
  | nil => rfl
  | cons digit digits inductionHypothesis =>
      have next : 10 * value + (digit.toNat - '0'.toNat) < limit :=
        (le_foldl_digits digits _).trans_lt small
      have appended : appendDigit limit value digit =
          .ok (10 * value + (digit.toNat - '0'.toNat)) := by
        rw [appendDigit, if_pos (isDigit digit List.mem_cons_self)]
        exact if_pos next
      rw [List.foldlM_cons, appended]
      exact inductionHypothesis (fun other member => isDigit other (List.mem_cons_of_mem _ member))
        small

/-- Digits are read as their value if it is below the limit. -/
theorem readNat_of_digits
    {digits : List Char}
    (nonempty : digits ≠ [])
    (isDigit : ∀ digit ∈ digits, digit.isDigit = true)
    {limit : Nat}
    (small : digitsValue digits < limit) :
    readNat limit digits = .ok (digitsValue digits) := by
  have read := foldlM_appendDigit isDigit small
  unfold readNat
  split
  · exact absurd rfl nonempty
  · cases isDigit '+' List.mem_cons_self
  · cases isDigit '+' List.mem_cons_self
  · exact read

theorem isNearest_ofDecimal (digits : Nat) (exponent : Int) :
    Binary64.IsNearest (digits * 10 ^ exponent) (ofDecimal digits exponent) := by
  unfold ofDecimal
  split_ifs with negative
  · have isNearest := Binary64.isNearest_ofScientific digits true exponent.natAbs
    rwa [if_pos rfl, Int.ofNat_natAbs_of_nonpos negative.le, neg_neg] at isNearest
  · have isNearest := Binary64.isNearest_ofScientific digits false exponent.natAbs
    rwa [if_neg Bool.false_ne_true, Int.natAbs_of_nonneg (not_lt.mp negative)] at isNearest

/-! ## Numerals -/

/-- A decimal numeral without an exponent. -/
structure Numeral where
  negative : Bool
  whole : List Char
  fraction : Option (List Char)
  digits : ∀ digit ∈ whole ++ fraction.getD [], digit.isDigit = true
  nonempty : whole ++ fraction.getD [] ≠ []

namespace Numeral

/-- The point and the digits after it. -/
def pointed (numeral : Numeral) : List Char :=
  match numeral.fraction with
  | none => []
  | some fraction => '.' :: fraction

/-- The numeral without its sign. -/
def unsigned (numeral : Numeral) : List Char := numeral.whole ++ numeral.pointed

/-- The characters of a numeral. -/
def text (numeral : Numeral) : List Char :=
  if numeral.negative then '-' :: numeral.unsigned else numeral.unsigned

/-! ## Values -/

/-- The float nearest to the decimal without its sign. -/
def magnitude (numeral : Numeral) : Float :=
  ofDecimal (digitsValue (numeral.whole ++ numeral.fraction.getD []))
    (-((numeral.fraction.getD []).length : Int))

/-- The float that a numeral denotes. -/
def value (numeral : Numeral) : Float :=
  if numeral.negative then -numeral.magnitude else numeral.magnitude

/-- The rational number that a numeral writes. -/
def rational (numeral : Numeral) : ℚ :=
  let fraction := numeral.fraction.getD []
  let magnitude : ℚ := digitsValue numeral.whole + digitsValue fraction / 10 ^ fraction.length
  if numeral.negative then -magnitude else magnitude

/-- A numeral denotes the float nearest to the number that it writes. -/
theorem isNearest_value (numeral : Numeral) :
    Binary64.IsNearest numeral.rational numeral.value := by
  have magnitude : Binary64.IsNearest
      (digitsValue numeral.whole + digitsValue (numeral.fraction.getD []) /
        10 ^ (numeral.fraction.getD []).length)
      numeral.magnitude := by
    have isNearest := isNearest_ofDecimal (digitsValue (numeral.whole ++ numeral.fraction.getD []))
      (-((numeral.fraction.getD []).length : Int))
    have exact : (digitsValue (numeral.whole ++ numeral.fraction.getD []) : ℚ) *
        10 ^ (-((numeral.fraction.getD []).length : Int)) =
          digitsValue numeral.whole + digitsValue (numeral.fraction.getD []) /
            10 ^ (numeral.fraction.getD []).length := by
      rw [digitsValue_append, zpow_neg, zpow_natCast]
      push_cast
      field_simp
    rwa [exact] at isNearest
  unfold rational value
  split_ifs
  · exact magnitude.neg
  · exact magnitude

/-! ## Reading -/

theorem isDigit_of_mem_whole (numeral : Numeral) :
    ∀ digit ∈ numeral.whole, digit.isDigit = true :=
  fun digit member => numeral.digits digit (List.mem_append_left _ member)

theorem isDigit_of_mem_fraction
    (numeral : Numeral)
    {fraction : List Char}
    (isFraction : numeral.fraction = some fraction) :
    ∀ digit ∈ fraction, digit.isDigit = true := by
  intro digit member
  apply numeral.digits digit
  rw [isFraction]
  exact List.mem_append_right _ member

theorem mem_unsigned
    {numeral : Numeral}
    {character : Char}
    (member : character ∈ numeral.unsigned) :
    character.isDigit = true ∨ character = '.' := by
  rcases List.mem_append.mp member with whole | pointed
  · exact .inl (numeral.isDigit_of_mem_whole character whole)
  · unfold Numeral.pointed at pointed
    split at pointed
    · cases pointed
    · next fraction isFraction =>
        rcases List.mem_cons.mp pointed with point | later
        · exact .inr point
        · exact .inl (numeral.isDigit_of_mem_fraction isFraction character later)

theorem mem_text
    {numeral : Numeral}
    {character : Char}
    (member : character ∈ numeral.text) :
    character.isDigit = true ∨ character = '.' ∨ character = '-' := by
  unfold text at member
  split_ifs at member
  · rcases List.mem_cons.mp member with sign | later
    · exact .inr (.inr sign)
    · exact (mem_unsigned later).imp_right .inl
  · exact (mem_unsigned member).imp_right .inl

theorem unsigned_ne_nil (numeral : Numeral) : numeral.unsigned ≠ [] := by
  intro empty
  obtain ⟨noWhole, noPoint⟩ := List.append_eq_nil_iff.mp empty
  apply numeral.nonempty
  unfold pointed at noPoint
  split at noPoint
  · next noFraction => rw [noWhole, noFraction, Option.getD_none, List.append_nil]
  · cases noPoint

theorem text_ne_nil (numeral : Numeral) : numeral.text ≠ [] := by
  unfold text
  split_ifs
  · exact List.cons_ne_nil _ _
  · exact numeral.unsigned_ne_nil

theorem readFraction?_pointed (numeral : Numeral) :
    readFraction? numeral.pointed = some (numeral.fraction.getD [], 0) := by
  unfold pointed
  split
  · next noFraction =>
      rw [noFraction]
      rfl
  · next fraction isFraction =>
      have digits := numeral.isDigit_of_mem_fraction isFraction
      have whole : (fraction ++ []).takeWhile Char.isDigit = fraction ∧
          (fraction ++ []).dropWhile Char.isDigit = [] := span_append digits (by simp)
      rw [List.append_nil] at whole
      rw [readFraction?, whole.1, whole.2, isFraction]
      rfl

theorem readMagnitude?_unsigned (numeral : Numeral) :
    readMagnitude? numeral.unsigned = some numeral.magnitude := by
  have stopped : ∀ character ∈ numeral.pointed.head?, character.isDigit = false := by
    intro character head
    unfold pointed at head
    split at head
    · cases head
    · cases head
      rfl
  have cut := span_append numeral.isDigit_of_mem_whole stopped
  have someDigit : numeral.whole.length + (numeral.fraction.getD []).length ≠ 0 := by
    rw [← List.length_append]
    exact mt List.eq_nil_of_length_eq_zero numeral.nonempty
  rw [readMagnitude?, unsigned, cut.1, cut.2, readFraction?_pointed]
  dsimp only
  rw [if_neg someDigit, magnitude, Int.zero_sub]

theorem splitSign_unsigned (numeral : Numeral) :
    splitSign numeral.unsigned = (false, numeral.unsigned) := by
  have noSign : ∀ character ∈ numeral.unsigned, character ≠ '-' ∧ character ≠ '+' := by
    intro character member
    rcases mem_unsigned member with digit | rfl
    · constructor <;> rintro rfl <;> cases digit
    · decide
  unfold splitSign
  split
  · next rest isNegative =>
      exact absurd rfl (noSign '-' (isNegative ▸ List.mem_cons_self)).1
  · next rest isPositive =>
      exact absurd rfl (noSign '+' (isPositive ▸ List.mem_cons_self)).2
  · rfl

/-- A plain numeral is read as the float that it denotes. -/
theorem readFloat?_text (numeral : Numeral) : readFloat? numeral.text = some numeral.value := by
  have split : splitSign numeral.text = (numeral.negative, numeral.unsigned) := by
    unfold text
    split_ifs with negative
    · rw [negative]
      rfl
    · rw [Bool.not_eq_true] at negative
      rw [splitSign_unsigned, negative]
  rw [readFloat?, split]
  dsimp only
  rw [readMagnitude?_unsigned, Option.some_or, Option.map_some, value]

end Numeral

end NetworkConsole.Number
