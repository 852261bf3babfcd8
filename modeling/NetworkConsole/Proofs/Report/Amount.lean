import NetworkConsole.Proofs.Number.Numeral
import NetworkConsole.Proofs.Report.Attribution
import NetworkConsole.Proofs.Text.OnePass

/-!
# Amounts on a line

A line tells a metric where its keyword is followed by the longest run of blanks, the longest
run of numeral characters, the longest run of blanks again and the unit. The pattern of the
metric finds the first such place and keeps the numeral there, which may be empty.
-/

namespace NetworkConsole.Report

open Text (Pattern Alike Cursor)

/-! ## Places that tell a metric -/

/-- A run of characters that pass a test, as long as possible before what follows it. -/
structure LongestRun (accepts : Char → Bool) (run rest : List Char) : Prop where
  accepted : ∀ character ∈ run, accepts character = true
  stopped : ∀ character ∈ rest.head?, accepts character = false

/-- The parts of a text that starts with a metric, read from the left one after another. -/
structure Telling (metric : Metric) (text : List Char) where
  mark : List Char
  blanks : List Char
  numeral : List Char
  moreBlanks : List Char
  unitMark : List Char
  rest : List Char
  split : text = mark ++ (blanks ++ (numeral ++ (moreBlanks ++ (unitMark ++ rest))))
  isKeyword : Alike mark (keyword metric).toList
  areBlanks : LongestRun Text.isBlank blanks (numeral ++ (moreBlanks ++ (unitMark ++ rest)))
  isNumeral : LongestRun isNumeralCharacter numeral (moreBlanks ++ (unitMark ++ rest))
  areMoreBlanks : LongestRun Text.isBlank moreBlanks (unitMark ++ rest)
  isUnit : Alike unitMark (unit metric).toList

namespace LongestRun

variable {accepts : Char → Bool} {run rest : List Char}

theorem takeWhile_eq (longest : LongestRun accepts run rest) :
    (run ++ rest).takeWhile accepts = run :=
  (Number.span_append longest.accepted longest.stopped).1

theorem dropWhile_eq (longest : LongestRun accepts run rest) :
    (run ++ rest).dropWhile accepts = rest :=
  (Number.span_append longest.accepted longest.stopped).2

theorem takeWhile (accepts : Char → Bool) (text : List Char) :
    LongestRun accepts (text.takeWhile accepts) (text.dropWhile accepts) where
  accepted := fun _ => List.mem_takeWhile_imp
  stopped := by
    intro character isHead
    have refused := List.head?_dropWhile_not accepts text
    rwa [Option.mem_def.mp isHead] at refused

end LongestRun

/-! ## Patterns of amounts -/

theorem toNat_of_isNumeralCharacter
    {character : Char}
    (isNumeral : isNumeralCharacter character = true) :
    45 ≤ character.toNat ∧ character.toNat ≤ 57 := by
  simp only [isNumeralCharacter, Bool.or_eq_true, decide_eq_true_eq] at isNumeral
  rcases isNumeral with (digit | rfl) | rfl
  · obtain ⟨low, high⟩ := Char.isDigit_iff_toNat.mp digit
    exact ⟨Nat.le_trans (by decide) low, high⟩
  · decide
  · decide

theorem isBlank_of_isNumeralCharacter
    {character : Char}
    (isNumeral : isNumeralCharacter character = true) :
    Text.isBlank character = false := by
  obtain ⟨low, high⟩ := toNat_of_isNumeralCharacter isNumeral
  exact Text.isBlank_eq_false_of_apart (by decide) low high

theorem fold_of_isNumeralCharacter
    {character : Char}
    (isNumeral : isNumeralCharacter character = true) :
    Text.fold character = character :=
  Text.fold_of_lt (by have := toNat_of_isNumeralCharacter isNumeral; omega)

/-- A numeral, its unit and the blanks around it. -/
def amountPattern (metric : Metric) : Pattern :=
  .seq (.span Text.isBlank) <|
  .seq (.group (.span isNumeralCharacter)) <|
  .seq (.span Text.isBlank) (.word (unit metric).toList)

theorem metricPattern_eq (metric : Metric) :
    metricPattern metric = .seq (.word (keyword metric).toList) (amountPattern metric) := rfl

/-- A unit starts with a letter, and so avoids characters that have no other letter case. -/
theorem avoids_unit
    {accepts : Char → Bool}
    (folded : ∀ character, accepts character = true → Text.fold character = character)
    (bits : accepts 'b' = false)
    (milliseconds : accepts 'm' = false)
    (metric : Metric) :
    (Pattern.word (unit metric).toList).Avoids accepts := by
  have avoids {first : Char} (refused : accepts first = false)
      (unfolded : Text.fold first = first) (later : List Char) :
      (Pattern.word (first :: later)).Avoids accepts := by
    apply Pattern.avoids_word
    rintro character accepted same
    rw [folded character accepted, unfolded] at same
    rw [same, refused] at accepted
    cases accepted
  have start : (unit metric).toList = ['b', 'p', 's'] ∨ (unit metric).toList = ['m', 's'] := by
    cases metric <;> decide
  rcases start with start | start
  · rw [start]
    exact avoids bits (by decide) _
  · rw [start]
    exact avoids milliseconds (by decide) _

theorem avoids_unit_isBlank (metric : Metric) :
    (Pattern.word (unit metric).toList).Avoids Text.isBlank :=
  avoids_unit (fun _ => Text.fold_of_isBlank) (by decide) (by decide) metric

theorem avoids_unit_isNumeralCharacter (metric : Metric) :
    (Pattern.word (unit metric).toList).Avoids isNumeralCharacter :=
  avoids_unit (fun _ => fold_of_isNumeralCharacter) (by decide) (by decide) metric

/-- Past the blanks the numeral, more blanks and the unit are read in one pass. -/
theorem head?_ways_numeral (metric : Metric) (text : List Char) (groups : List (List Char)) :
    ((Pattern.seq (.group (.span isNumeralCharacter)) <|
        .seq (.span Text.isBlank) (.word (unit metric).toList)).ways ⟨text, groups⟩).head? =
      ((Pattern.word (unit metric).toList).ways
        ⟨(text.dropWhile isNumeralCharacter).dropWhile Text.isBlank,
          text.takeWhile isNumeralCharacter :: groups⟩).head? := by
  have avoids := Pattern.avoids_seq_span (fun _ => isBlank_of_isNumeralCharacter)
    (avoids_unit_isNumeralCharacter metric)
  rw [Pattern.head?_ways_seq_group_span avoids,
    Pattern.head?_ways_seq_span (avoids_unit_isBlank metric)]

/-- An amount is read in one pass. If the first blanks were cut short, the numeral would be
empty, and the unit would have to follow the same blanks. -/
theorem head?_ways_amountPattern (metric : Metric) (text : List Char) (groups : List (List Char)) :
    ((amountPattern metric).ways ⟨text, groups⟩).head? =
      ((Pattern.word (unit metric).toList).ways
        ⟨((text.dropWhile Text.isBlank).dropWhile isNumeralCharacter).dropWhile Text.isBlank,
          (text.dropWhile Text.isBlank).takeWhile isNumeralCharacter :: groups⟩).head? := by
  rw [← head?_ways_numeral]
  refine Pattern.head?_ways_seq_of_best (Pattern.head?_ways_span _ _ _) ?_
  intro noWay other way
  rw [← List.head?_eq_none_iff, head?_ways_numeral] at noWay
  rw [← List.head?_eq_none_iff, head?_ways_numeral]
  have sameEnd := Pattern.dropWhile_of_mem_ways_span way
  have idempotent := List.dropWhile_idempotent (p := Text.isBlank) (l := text)
  rcases Pattern.mem_ways_span_cases way with rfl | ⟨character, rest, blank, rfl⟩
  · exact noWay
  -- A blank is left before the numeral, which is then empty and followed by the same visible text.
  · have noNumeral : isNumeralCharacter character = false := by
      by_contra isNumeral
      rw [isBlank_of_isNumeralCharacter (by simpa using isNumeral)] at blank
      cases blank
    rw [List.dropWhile_cons_of_neg (by simp [noNumeral]),
      List.takeWhile_cons_of_neg (by simp [noNumeral]), sameEnd]
    cases visible : text.dropWhile Text.isBlank with
    | nil => simpa [visible] using noWay
    | cons first later =>
        rw [visible] at noWay idempotent
        by_cases isNumeral : isNumeralCharacter first = true
        · rw [avoids_unit_isNumeralCharacter metric first later _ isNumeral, List.head?_nil]
        · rwa [List.dropWhile_cons_of_neg isNumeral, List.takeWhile_cons_of_neg isNumeral,
            idempotent] at noWay

/-! ## Matches -/

/-- The match of a text that starts with a metric. -/
def Telling.found {metric : Metric} {text : List Char} (telling : Telling metric text) :
    Pattern.Match where
  text := telling.mark ++
    (telling.blanks ++ (telling.numeral ++ (telling.moreBlanks ++ telling.unitMark)))
  groups := [telling.numeral]

theorem Telling.split_found
    {metric : Metric}
    {text : List Char}
    (telling : Telling metric text) :
    text = telling.found.text ++ telling.rest := by
  simpa [Telling.found] using telling.split

/-- Where a unit stands after the longest runs that follow a keyword, the metric is told. -/
def Telling.ofRuns
    {metric : Metric}
    {mark after unitMark rest : List Char}
    (isKeyword : Alike mark (keyword metric).toList)
    (isUnit : Alike unitMark (unit metric).toList)
    (split : ((after.dropWhile Text.isBlank).dropWhile isNumeralCharacter).dropWhile Text.isBlank =
      unitMark ++ rest) :
    Telling metric (mark ++ after) where
  mark := mark
  blanks := after.takeWhile Text.isBlank
  numeral := (after.dropWhile Text.isBlank).takeWhile isNumeralCharacter
  moreBlanks :=
    ((after.dropWhile Text.isBlank).dropWhile isNumeralCharacter).takeWhile Text.isBlank
  unitMark := unitMark
  rest := rest
  split := by simp only [← split, List.takeWhile_append_dropWhile]
  isKeyword := isKeyword
  areBlanks := by
    simp only [← split, List.takeWhile_append_dropWhile]
    exact .takeWhile _ _
  isNumeral := by
    simp only [← split, List.takeWhile_append_dropWhile]
    exact .takeWhile _ _
  areMoreBlanks := by
    rw [← split]
    exact .takeWhile _ _
  isUnit := isUnit

theorem matchStart?_metricPattern_eq_some_iff
    (metric : Metric)
    (text : List Char)
    (found : Pattern.Match) :
    (metricPattern metric).matchStart? text = some found ↔
      ∃ telling : Telling metric text, telling.found = found := by
  simp only [Pattern.matchStart?_eq, Option.map_eq_some_iff, metricPattern_eq,
    Pattern.head?_ways_seq_word_eq_some_iff, head?_ways_amountPattern,
    Pattern.head?_ways_word_eq_some_iff]
  constructor
  · rintro ⟨⟨rest, groups⟩, ⟨mark, after, rfl, isKeyword, unitMark, split, isUnit, rfl⟩, rfl⟩
    refine ⟨.ofRuns isKeyword isUnit split, ?_⟩
    rw [Pattern.Match.mk.injEq]
    exact ⟨(Pattern.take_sub_length_of_split (Telling.split_found _)).symm, rfl⟩
  · rintro ⟨telling, rfl⟩
    refine ⟨⟨telling.rest, [telling.numeral]⟩, ⟨telling.mark, _, telling.split, telling.isKeyword,
      telling.unitMark, ?_, telling.isUnit, ?_⟩, ?_⟩
    · rw [telling.areBlanks.dropWhile_eq, telling.isNumeral.dropWhile_eq,
        telling.areMoreBlanks.dropWhile_eq]
    · rw [telling.areBlanks.dropWhile_eq, telling.isNumeral.takeWhile_eq]
    · rw [Pattern.take_sub_length_of_split telling.split_found]
      rfl

/-- The pattern of a metric finds the first place of a line that tells the metric, and keeps
the numeral that stands there. -/
theorem found_of_metricPattern (metric : Metric) (line : List Char) :
    ((metricPattern metric).occursIn line = true ↔
      ∃ position, Nonempty (Telling metric (line.drop position))) ∧
    ∀ found,
      (metricPattern metric).find? line = some found ↔
        ∃ position,
          (∃ telling : Telling metric (line.drop position), telling.found = found) ∧
            ∀ earlier < position, IsEmpty (Telling metric (line.drop earlier)) := by
  have noMatch (text : List Char) :
      (metricPattern metric).matchStart? text = none ↔ IsEmpty (Telling metric text) := by
    simp only [Option.eq_none_iff_forall_ne_some, ne_eq, matchStart?_metricPattern_eq_some_iff,
      not_exists, isEmpty_iff]
    exact ⟨fun apart telling => apart _ telling rfl, fun none _ telling => (none telling).elim⟩
  constructor
  · simp only [Pattern.occursIn_iff, ne_eq, ← Pattern.matchStart?_eq_none_iff, noMatch,
      not_isEmpty_iff]
  · intro found
    simp only [Pattern.find?_eq_some_iff, matchStart?_metricPattern_eq_some_iff, noMatch]

example :
    numeralOf? .bandwidth
        "attempted bandwidth: 7 kbps ATTEMPTED BANDWIDTH:\tbps attempted bandwidth:5bps".toList =
      some [] := by
  decide

end NetworkConsole.Report
