import NetworkConsole.Proofs.Report.Amount
import NetworkConsole.Proofs.Text.Relabelling

/-!
# Letter case of a report

Neither the headers nor the metrics nor the errors of a report can be told from their lower
case. A numeral has no letters, and a copied error text is lowered with the text that it is
copied from.
-/

namespace NetworkConsole.Report

open Text (Pattern)

/-! ## Patterns -/

theorem ignores_header (direction : Direction) : (header direction).Ignores Char.toLower := by
  cases direction <;> exact Pattern.ignores_word _

theorem isNumeralCharacter_toLower (character : Char) :
    isNumeralCharacter character.toLower = isNumeralCharacter character := by
  apply Text.accepts_toLower
  intro letter isLetter
  rw [Bool.eq_false_iff]
  intro isNumeral
  have := toNat_of_isNumeralCharacter isNumeral
  have := Text.toNat_of_isAlpha isLetter
  omega

theorem ignores_metricPattern (metric : Metric) :
    (metricPattern metric).Ignores Char.toLower :=
  ⟨Pattern.ignores_word _, Text.isBlank_toLower, isNumeralCharacter_toLower, Text.isBlank_toLower,
    Pattern.ignores_word _⟩

/-- A literal is told by its quotes and escape marks, and none of them is a letter. -/
theorem ignores_literal {quote : Char} (notLetter : quote.isAlpha = false) :
    (literal quote).Ignores Char.toLower := by
  have quotes := Text.keeps_toLower notLetter
  have marks : Text.Keeps Char.toLower escapeMark := Text.keeps_toLower rfl
  have feeds : Text.Keeps Char.toLower '\n' := Text.keeps_toLower rfl
  refine ⟨fun character => ?_, ⟨fun character => ?_, fun character => ?_, fun character => ?_⟩,
    fun character => ?_⟩
  · simp only [quotes character]
  · simp only [ne_eq, quotes character, marks character]
  · simp only [marks character]
  · simp only [ne_eq, feeds character]
  · simp only [quotes character]

theorem ignores_assignment (keyword : String) : (assignment keyword).Ignores Char.toLower := by
  have equals : Text.Keeps Char.toLower '=' := Text.keeps_toLower rfl
  refine ⟨Pattern.ignores_word _, fun character => ?_, ignores_literal rfl, ignores_literal rfl⟩
  simp only [equals character]

theorem ignores_errorMessage : errorMessage.Ignores Char.toLower := by
  have feeds : Text.Keeps Char.toLower '\n' := Text.keeps_toLower rfl
  refine ⟨Pattern.ignores_word _, Text.isBlank_toLower, fun character => ?_⟩
  simp only [ne_eq, feeds character]

/-! ## Lines -/

theorem headerOf?_toLower (line : List Char) :
    headerOf? (line.map Char.toLower) = headerOf? line := by
  simp only [headerOf?, Pattern.occursIn_map (ignores_header _)]

theorem isNumeralCharacter_of_numeralOf?
    {metric : Metric}
    {line numeral : List Char}
    (isNumeral : numeralOf? metric line = some numeral) :
    ∀ character ∈ numeral, isNumeralCharacter character = true := by
  obtain ⟨found, isFound, groups⟩ := (numeralOf?_eq_some_iff _ _ _).mp isNumeral
  obtain ⟨position, matched, -⟩ := (Pattern.find?_eq_some_iff _ _ _).mp isFound
  obtain ⟨telling, rfl⟩ := (matchStart?_metricPattern_eq_some_iff _ _ _).mp matched
  obtain rfl : telling.numeral = numeral := List.cons.inj groups |>.1
  exact telling.isNumeral.accepted

/-- The numeral of a metric is the same in lower case, as it has no letters. -/
theorem numeralOf?_toLower (metric : Metric) (line : List Char) :
    numeralOf? metric (line.map Char.toLower) = numeralOf? metric line := by
  have lowered : numeralOf? metric (line.map Char.toLower) =
      (numeralOf? metric line).map (List.map Char.toLower) := by
    rw [numeralOf?, Pattern.find?_map (ignores_metricPattern metric), numeralOf?]
    cases (metricPattern metric).find? line with
    | none => rfl
    | some found => exact List.head?_map
  cases isNumeral : numeralOf? metric line with
  | none => rw [lowered, isNumeral, Option.map_none]
  | some numeral =>
      rw [lowered, isNumeral, Option.map_some, Option.some.injEq]
      refine (List.map_congr_left fun character member => ?_).trans (List.map_id numeral)
      rcases Text.toLower_cases character with same | ⟨low, -, -⟩
      · exact same
      · have := toNat_of_isNumeralCharacter
          (isNumeralCharacter_of_numeralOf? isNumeral character member)
        omega

theorem readingOf?_toLower (line : List Char) :
    readingOf? (line.map Char.toLower) = readingOf? line := by
  simp only [readingOf?, numeralOf?_toLower]

theorem errorOf?_toLower (line : List Char) :
    errorOf? (line.map Char.toLower) = (errorOf? line).map (List.map Char.toLower) := by
  unfold errorOf?
  rw [errorLiteral, criticalLiteral, Pattern.find?_map (ignores_assignment _),
    Pattern.find?_map (ignores_assignment _), Pattern.find?_map ignores_errorMessage]
  cases (assignment "err").find? line with
  | some found => rfl
  | none =>
      cases (assignment "crit msg").find? line with
      | some found => rfl
      | none =>
          cases errorMessage.find? line with
          | none => rfl
          | some found =>
              obtain ⟨text, groups⟩ := found
              cases groups with
              | nil => rfl
              | cons rest groups =>
                  exact congrArg some (Text.trim_map Text.isBlank_toLower rest)

/-! ## Scans -/

theorem toList_toLower (text : String) : text.toLower.toList = text.toList.map Char.toLower :=
  String.toList_map

namespace Scan

/-- The scan of the lines in lower case. -/
def toLower (scan : Scan) : Scan :=
  { scan with
    errorText := scan.errorText.map (List.map Char.toLower)
    firstLine := scan.firstLine.map (List.map Char.toLower) }

theorem takeReading_toLower (scan : Scan) (line : List Char) :
    scan.toLower.takeReading (line.map Char.toLower) = (scan.takeReading line).toLower := by
  have direction : scan.toLower.direction = scan.direction := rfl
  unfold takeReading
  rw [readingOf?_toLower, direction]
  cases scan.direction with
  | none => rfl
  | some direction =>
      cases readingOf? line with
      | none => rfl
      | some reading =>
          obtain ⟨metric, numeral⟩ := reading
          dsimp only
          cases Number.readFloat? numeral <;> rfl

theorem takeError_toLower (scan : Scan) (line : List Char) :
    scan.toLower.takeError (line.map Char.toLower) = (scan.takeError line).toLower := by
  unfold takeError
  rw [errorOf?_toLower, Text.allBlank_map Text.isBlank_toLower, Text.trim_map Text.isBlank_toLower]
  cases errorOf? line with
  | some text => rfl
  | none =>
      have noFirst : scan.toLower.firstLine.isNone = scan.firstLine.isNone := Option.isNone_map
      simp only [Option.map_none, noFirst]
      split <;> rfl

theorem step_toLower (scan : Scan) (line : List Char) :
    scan.toLower.step (line.map Char.toLower) = (scan.step line).toLower := by
  rw [step, headerOf?_toLower, step, ← takeError_toLower, ← takeReading_toLower]
  rfl

theorem foldl_step_toLower (scan : Scan) (lines : List (List Char)) :
    (lines.map (List.map Char.toLower)).foldl step scan.toLower =
      (lines.foldl step scan).toLower := by
  induction lines generalizing scan with
  | nil => rfl
  | cons line later inductionHypothesis =>
      rw [List.map_cons, List.foldl_cons, step_toLower, inductionHypothesis, List.foldl_cons]

theorem report_toLower (scan : Scan) :
    scan.toLower.report =
      { scan.report with error := scan.report.error.map String.toLower } := by
  have lowered (text : List Char) :
      String.ofList (text.map Char.toLower) = (String.ofList text).toLower := by
    rw [← String.toList_inj, toList_toLower, String.toList_ofList, String.toList_ofList]
  obtain ⟨direction, metrics, errorText, firstLine⟩ := scan
  cases errorText with
  | some text => simp [report, toLower, lowered]
  | none => cases firstLine <;> simp [report, toLower, lowered]

end Scan

/-- The lower case of an output, which touches the ASCII letters only, is read as the same
metrics of both directions and as the lower case of the same error. -/
theorem scan_toLower (text : String) :
    scan text.toLower = { scan text with error := (scan text).error.map String.toLower } := by
  have lines : Text.lines text.toLower.toList =
      (Text.lines text.toList).map (List.map Char.toLower) := by
    rw [toList_toLower, Text.lines_map (Text.keeps_toLower rfl) (Text.keeps_toLower rfl)]
  have initial : Scan.initial.toLower = Scan.initial := rfl
  calc scan text.toLower
      = (((Text.lines text.toList).map (List.map Char.toLower)).foldl Scan.step
          Scan.initial.toLower).report := by rw [scan, lines, initial]
    _ = ((Text.lines text.toList).foldl Scan.step .initial).toLower.report := by
          rw [Scan.foldl_step_toLower]
    _ = { scan text with error := (scan text).error.map String.toLower } :=
          Scan.report_toLower _

end NetworkConsole.Report
