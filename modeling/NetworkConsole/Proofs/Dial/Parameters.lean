import NetworkConsole.Proofs.Dial.Edit
import NetworkConsole.Proofs.Dial.Rate
import NetworkConsole.Proofs.Text.Blank

/-!
# Typed parameters

Whole numbers that are typed between commas are what the dials show, provided that they are
in range: the slack of a dial's precision is too small to lift any of them to the next whole
number. So the parameters that a panel shows lead to the same panel again.
-/

namespace NetworkConsole

open Binary64

/-! ## Whole values -/

namespace Dial

/-- The slack adds less than a half to a whole number in range. -/
theorem value_mul_slack_bounds {n : ℕ} (bounded : n ≤ 187500000) :
    (Float.ofNat n * (1 + slack)).isFinite = true ∧
      n ≤ value (Float.ofNat n * (1 + slack)) ∧
      value (Float.ofNat n * (1 + slack)) ≤ n + 1 / 2 := by
  have small : n < 2 ^ 53 := by omega
  have limit : (n : ℚ) ≤ 187500000 := by exact_mod_cast bounded
  have nonneg : (0 : ℚ) ≤ n := n.cast_nonneg
  have product := mul_roundsTo (isFinite_ofNat small) (y := 1 + slack) rfl
  rw [value_ofNat small, value_one_add_slack] at product
  have lower : (n : ℚ) ≤ n * (4503599631874096 * 2 ^ (-52 : ℤ)) := by
    norm_num
    linarith
  have upper : n * (4503599631874096 * 2 ^ (-52 : ℤ)) ≤ (n + 1 / 2 : ℚ) := by
    norm_num
    linarith
  have half : Representable (n + 1 / 2) := by
    refine ⟨2 * n + 1, -1, ?_, by norm_num, ?_⟩
    · rw [abs_of_nonneg (by positivity)]
      omega
    · push_cast
      norm_num
      ring
  have below : (n + 1 / 2 : ℚ) < overflow :=
    lt_trans (by push_cast; linarith) (natCast_lt_overflow (n := n + 1) (by omega))
  have finite := product.isFinite_of_le half below (by rwa [abs_of_nonneg (nonneg.trans lower)])
  rw [product.value_eq finite]
  exact ⟨finite, le_nearest (representable_natCast small.le) lower, nearest_le half upper⟩

/-- A whole number in range is kept at the precision of a whole dial. -/
theorem normalize_ofNat
    {dial : Dial}
    (whole : dial ≠ .bandwidth)
    {n : ℕ}
    (positive : 0 < n)
    (bounded : n ≤ 187500000) :
    dial.normalize (Float.ofNat n) = Float.ofNat n := by
  have small : n < 2 ^ 53 := by omega
  have size : (0 : ℚ) < n := by exact_mod_cast positive
  obtain ⟨finite, atLeast, atMost⟩ := value_mul_slack_bounds bounded
  have floor : ⌊value (Float.ofNat n * (1 + slack))⌋ = n := by
    rw [Int.floor_eq_iff]
    push_cast
    constructor <;> linarith
  have truncated := Number.truncate_value_of_pos finite (size.trans_le atLeast)
  rw [floor, Int.cast_natCast] at truncated
  have same : Number.truncate (Float.ofNat n * (1 + slack)) = Float.ofNat n :=
    eq_of_value_eq (Number.truncate_value finite).1 (isFinite_ofNat small)
      (by rw [truncated]; exact size.ne') (by rw [truncated, value_ofNat small])
  cases dial with
  | bandwidth => exact absurd rfl whole
  | _ => exact same

/-- What a whole dial shows on its scale is at its precision already. -/
theorem OnScale.normalize_eq
    {dial : Dial}
    {x : Float}
    (onScale : dial.OnScale x)
    (whole : dial ≠ .bandwidth) :
    dial.normalize x = x := by
  obtain ⟨n, rfl, least, greatest⟩ := onScale.exists_nat whole
  have range : 0 < dial.wholeRange.1 ∧ dial.wholeRange.2 ≤ 187500000 := by
    cases dial with
    | bandwidth => exact absurd rfl whole
    | _ => decide
  exact normalize_ofNat whole (by omega) (by omega)

end Dial

/-! ## Texts -/

theorem splitCommas_eq_splitOn (text : List Char) : splitCommas text = text.splitOn ',' := by
  rw [List.splitOn_eq_splitOnP]
  induction text with
  | nil => rfl
  | cons character rest inductionHypothesis =>
      obtain ⟨piece, pieces, split⟩ :=
        List.exists_cons_of_ne_nil (List.splitOnP_ne_nil (· == ',') rest)
      rw [List.splitOnP_cons_eq_if_modifyHead, split]
      rw [split] at inductionHypothesis
      by_cases comma : character = ','
      · rw [comma, splitCommas, inductionHypothesis]
        rfl
      · rw [if_neg (by simpa using comma), splitCommas, inductionHypothesis]
        · rfl
        · exact comma

namespace TestParameters

/-- The ways to write a natural number: decimal digits, with blanks around them. -/
inductive PartText (n : ℕ) : List Char → Prop
  | intro
      {before digits after : List Char}
      (blankBefore : ∀ character ∈ before, Text.isBlank character = true)
      (nonempty : digits ≠ [])
      (isDigit : ∀ digit ∈ digits, digit.isDigit = true)
      (value : Number.digitsValue digits = n)
      (blankAfter : ∀ character ∈ after, Text.isBlank character = true) :
      PartText n (before ++ digits ++ after)

namespace PartText

variable {n : ℕ} {text : List Char}

/-- The decimal digits of a number are one way to write it. -/
theorem toDigits (n : ℕ) : PartText n (Nat.toDigits 10 n) := by
  have written : PartText n ([] ++ Nat.toDigits 10 n ++ []) :=
    .intro (by simp) Nat.toDigits_ne_nil
      (fun digit member => Nat.isDigit_of_mem_toDigits (by decide) (by decide) member)
      (Nat.ofDigitChars_toDigits (by decide) (by decide)) (by simp)
  rwa [List.append_nil] at written

theorem notMem_comma (written : PartText n text) : ',' ∉ text := by
  cases written with
  | intro blankBefore nonempty isDigit value blankAfter =>
      simp only [List.mem_append, not_or]
      refine ⟨⟨fun member => ?_, fun member => ?_⟩, fun member => ?_⟩
      · cases blankBefore _ member
      · cases isDigit _ member
      · cases blankAfter _ member

theorem readFloat?_trim (written : PartText n text) :
    Number.readFloat? (Text.trim text) = some (Float.ofNat n) := by
  cases written with
  | @intro before digits after blankBefore nonempty isDigit value blankAfter =>
      let numeral : Number.Numeral :=
        ⟨false, digits, none, by simpa using isDigit, by simpa using nonempty⟩
      have numeralText : numeral.text = digits := List.append_nil digits
      have numeralValue : numeral.value = Float.ofNat n := by
        rw [← value, ← List.append_nil digits]
        rfl
      rw [Text.trim_of_blanks blankBefore nonempty
        (fun digit member => Text.isBlank_eq_false_of_isDigit (isDigit digit member)) blankAfter,
        ← numeralText, numeral.readFloat?_text, numeralValue]

end PartText

variable {seconds size packets : ℕ} {secondsText sizeText packetsText : List Char}

/-- Three whole numbers between commas are read as these numbers. -/
theorem ofText_intercalate
    (secondsWritten : PartText seconds secondsText)
    (sizeWritten : PartText size sizeText)
    (packetsWritten : PartText packets packetsText) :
    ofText (String.ofList ([','].intercalate [secondsText, sizeText, packetsText])) =
      .ok ⟨Float.ofNat seconds, Float.ofNat size, Float.ofNat packets⟩ := by
  have noComma : ∀ part ∈ [secondsText, sizeText, packetsText], ',' ∉ part := by
    simp [secondsWritten.notMem_comma, sizeWritten.notMem_comma, packetsWritten.notMem_comma]
  rw [ofText, String.toList_ofList, splitCommas_eq_splitOn,
    List.splitOn_intercalate ',' noComma (List.cons_ne_nil _ _)]
  simp [secondsWritten.readFloat?_trim, sizeWritten.readFloat?_trim,
    packetsWritten.readFloat?_trim]

end TestParameters

namespace Panel

/-- The parameters that a panel shows. -/
def parameters (panel : Panel) : TestParameters :=
  ⟨panel.get .seconds, panel.get .size, panel.get .packets⟩

/-- A panel is known from the values that it shows for its parameters. -/
theorem ofParameters_congr
    {first second : TestParameters}
    (seconds : Dial.normalize .seconds first.seconds = Dial.normalize .seconds second.seconds)
    (size : Dial.normalize .size first.size = Dial.normalize .size second.size)
    (packets : Dial.normalize .packets first.packets = Dial.normalize .packets second.packets) :
    ofParameters first = ofParameters second := by
  rw [ofParameters, ofParameters, seconds, size, packets]

theorem ofParameters_parameters
    {parameters : TestParameters}
    (checked : (ofParameters parameters).checkRanges = .ok ()) :
    ofParameters (ofParameters parameters).parameters = ofParameters parameters := by
  have onScale := onScale_ofParameters checked
  exact ofParameters_congr ((onScale .seconds).normalize_eq (by decide))
    ((onScale .size).normalize_eq (by decide)) ((onScale .packets).normalize_eq (by decide))

/-- Whole numbers in range that are typed between commas, with blanks around each of them, are
read and shown by the dials as they are. So a panel of typed parameters that passes the range
check is the panel of the parameters that it shows. -/
theorem shown_of_typed :
    (∀ seconds size packets : ℕ,
      1 ≤ seconds ∧ seconds ≤ 10 → 64 ≤ size ∧ size ≤ 1400 →
      1 ≤ packets ∧ packets ≤ 187500000 →
      ∀ secondsText sizeText packetsText,
        TestParameters.PartText seconds secondsText →
        TestParameters.PartText size sizeText →
        TestParameters.PartText packets packetsText →
        ∃ parameters,
          TestParameters.ofText
              (String.ofList ([','].intercalate [secondsText, sizeText, packetsText])) =
            .ok parameters ∧
          (ofParameters parameters).get .seconds = Float.ofNat seconds ∧
          (ofParameters parameters).get .size = Float.ofNat size ∧
          (ofParameters parameters).get .packets = Float.ofNat packets) ∧
    ∀ parameters, (ofParameters parameters).checkRanges = .ok () →
      ofParameters (ofParameters parameters).parameters = ofParameters parameters := by
  refine ⟨?_, fun parameters checked => ofParameters_parameters checked⟩
  intro seconds size packets secondsRange sizeRange packetsRange secondsText sizeText packetsText
    secondsWritten sizeWritten packetsWritten
  have read := TestParameters.ofText_intercalate secondsWritten sizeWritten packetsWritten
  have secondsShown : Dial.normalize .seconds (Float.ofNat seconds) = Float.ofNat seconds :=
    Dial.normalize_ofNat (by decide) (by omega) (by omega)
  have sizeShown : Dial.normalize .size (Float.ofNat size) = Float.ofNat size :=
    Dial.normalize_ofNat (by decide) (by omega) (by omega)
  have packetsShown : Dial.normalize .packets (Float.ofNat packets) = Float.ofNat packets :=
    Dial.normalize_ofNat (by decide) (by omega) (by omega)
  exact ⟨_, read, secondsShown, sizeShown, packetsShown⟩

/-- The greatest number of packets is not lifted by the slack, and a panel at the greatest
bandwidth is the panel of what it shows. -/
theorem shown_at_greatest :
    (∃ parameters,
      TestParameters.ofText "10,\t01400 ,\u3000187500000" = .ok parameters ∧
        (ofParameters parameters).get .packets = Float.ofNat 187500000) ∧
    (ofParameters ⟨10, 1000, 187500⟩).get .bandwidth = 150 ∧
    ofParameters (ofParameters ⟨10, 1000, 187500⟩).parameters =
      ofParameters ⟨10, 1000, 187500⟩ := by
  obtain ⟨typed, shown⟩ := shown_of_typed
  have seconds : TestParameters.PartText 10 ['1', '0'] := .toDigits 10
  have size : TestParameters.PartText 1400 (['\t'] ++ ['0', '1', '4', '0', '0'] ++ [' ']) :=
    .intro (List.all_eq_true.mp rfl) (by decide) (List.all_eq_true.mp rfl) (by decide)
      (List.all_eq_true.mp rfl)
  have packets : TestParameters.PartText 187500000
      (['\u3000'] ++ ['1', '8', '7', '5', '0', '0', '0', '0', '0'] ++ []) :=
    .intro (List.all_eq_true.mp rfl) (by decide) (List.all_eq_true.mp rfl) (by decide)
      (List.all_eq_true.mp rfl)
  have inRange : Dial.all.find? (fun dial =>
      !dial.accepts ((ofParameters ⟨10, 1000, 187500⟩).get dial)) = none := by decide +kernel
  obtain ⟨parameters, read, -, -, packetsShown⟩ :=
    typed 10 1400 187500000 (by decide) (by decide) (by decide) _ _ _ seconds size packets
  exact ⟨⟨parameters, read, packetsShown⟩, by decide +kernel,
    shown _ (by rw [checkRanges, inRange])⟩

end Panel
end NetworkConsole
