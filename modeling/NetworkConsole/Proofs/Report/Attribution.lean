import Mathlib.Data.List.Induction
import NetworkConsole.Proofs.Text.Pattern
import NetworkConsole.Report.Scan

/-!
# Attribution of metrics

A metric of a direction is the number on the last line that assigns it: the latest header
line up to there selects the direction, the metric is the first one whose pattern matches
the line, and its numeral denotes a number. Lines before the first header assign nothing.
-/

namespace NetworkConsole.Report

open Text (Pattern Cursor)

/-! ## Last values -/

/-- The value at the last index that has one. -/
def IsLast (values : Nat → α → Prop) (value : α) : Prop :=
  ∃ index, values index value ∧ ∀ later, index < later → ∀ other, ¬ values later other

theorem isLast_congr
    {first second : Nat → α → Prop}
    (same : ∀ index value, first index value ↔ second index value)
    (value : α) :
    IsLast first value ↔ IsLast second value := by
  have equal : first = second := funext₂ fun index value => propext (same index value)
  rw [equal]

theorem exists_getElem?_concat
    (list : List α)
    (last : α)
    (property : α → Prop)
    (index : Nat) :
    (∃ item, (list ++ [last])[index]? = some item ∧ property item) ↔
      (∃ item, list[index]? = some item ∧ property item) ∨
        index = list.length ∧ property last := by
  rcases Nat.lt_trichotomy index list.length with before | rfl | after
  · rw [List.getElem?_append_left before]
    simp [Nat.ne_of_lt before]
  · simp
  · have beyond : (list ++ [last])[index]? = none := List.getElem?_eq_none (by
      simpa using Nat.succ_le_of_lt after)
    rw [beyond, List.getElem?_eq_none (Nat.le_of_lt after)]
    simp [Nat.ne_of_gt after]

/-- The last result of a partial function on a list. -/
theorem getLast?_filterMap_eq_some_iff
    (list : List α)
    (function : α → Option β)
    (result : β) :
    (list.filterMap function).getLast? = some result ↔
      IsLast (fun index result => ∃ item, list[index]? = some item ∧ function item = some result)
        result := by
  induction list using List.reverseRecOn with
  | nil => simp [IsLast]
  | append_singleton list last inductionHypothesis =>
      simp only [IsLast, exists_getElem?_concat] at inductionHypothesis ⊢
      cases value : function last with
      | none =>
          rw [List.filterMap_append, List.filterMap_cons_none value, List.filterMap_nil,
            List.append_nil, inductionHypothesis]
          simp
      | some lastResult =>
          rw [List.filterMap_append, List.filterMap_cons_some value, List.filterMap_nil,
            List.getLast?_concat, Option.some.injEq]
          constructor
          · rintro rfl
            refine ⟨list.length, .inr ⟨rfl, rfl⟩, ?_⟩
            rintro later after other (⟨item, found, -⟩ | ⟨rfl, -⟩)
            · rw [List.getElem?_eq_none (Nat.le_of_lt after)] at found
              cases found
            · exact absurd after (Nat.lt_irrefl _)
          · rintro ⟨index, ⟨item, found, -⟩ | ⟨-, same⟩, unmatched⟩
            · have before := (List.getElem?_eq_some_iff.mp found).1
              exact absurd (.inr ⟨rfl, rfl⟩) (unmatched list.length before lastResult)
            · exact same

theorem getLast?_filterMap_eq_none_iff (list : List α) (function : α → Option β) :
    (list.filterMap function).getLast? = none ↔
      ∀ (index : Nat) (result : β),
        ¬ ∃ item, list[index]? = some item ∧ function item = some result := by
  rw [List.getLast?_eq_none_iff, List.filterMap_eq_nil_iff]
  constructor
  · rintro noResult index result ⟨item, isItem, given⟩
    cases (noResult item (List.mem_of_getElem? isItem)).symm.trans given
  · intro noResult item isMember
    obtain ⟨index, isItem⟩ := List.mem_iff_getElem?.mp isMember
    refine Option.eq_none_iff_forall_ne_some.mpr fun result given => ?_
    exact noResult index result ⟨item, isItem, given⟩

/-! ## Headers -/

/-- A line selects the direction to the server if it has that header, even with both. -/
def Selects (line : List Char) : Direction → Prop
  | .clientToServer => (header .clientToServer).occursIn line = true
  | .serverToClient =>
      (header .serverToClient).occursIn line = true ∧
        ¬ (header .clientToServer).occursIn line = true

theorem headerOf?_eq_some_iff (line : List Char) (direction : Direction) :
    headerOf? line = some direction ↔ Selects line direction := by
  unfold headerOf?
  cases direction <;> split_ifs <;> simp_all [Selects]

theorem headerOf?_eq_none_iff (line : List Char) :
    headerOf? line = none ↔ ∀ direction, ¬ (header direction).occursIn line = true := by
  unfold headerOf?
  constructor
  · intro noHeader direction
    split_ifs at noHeader with toServer toClient
    cases direction with
    | clientToServer => exact toServer
    | serverToClient => exact toClient
  · intro noHeader
    rw [if_neg (noHeader .clientToServer), if_neg (noHeader .serverToClient)]

/-- The latest header line at or before an index selects a direction. -/
def LatestHeader (lines : List (List Char)) (index : Nat) (direction : Direction) : Prop :=
  IsLast (fun position direction =>
    position ≤ index ∧ ∃ line, lines[position]? = some line ∧ Selects line direction) direction

theorem latestHeader_iff (lines : List (List Char)) (index : Nat) (direction : Direction) :
    LatestHeader lines index direction ↔
      ((lines.take (index + 1)).filterMap headerOf?).getLast? = some direction := by
  rw [getLast?_filterMap_eq_some_iff]
  apply isLast_congr
  intro position direction
  simp only [List.getElem?_take, headerOf?_eq_some_iff]
  by_cases upTo : position ≤ index
  · simp [upTo, Nat.lt_succ_of_le upTo]
  · simp [upTo, mt Nat.le_of_lt_succ upTo]

/-! ## Readings -/

/-- The pattern of a metric keeps one group. -/
theorem groups_of_mem_ways_metricPattern
    {metric : Metric}
    {cursor after : Cursor}
    (way : after ∈ (metricPattern metric).ways cursor) :
    ∃ numeral, after.groups = numeral :: cursor.groups := by
  simp only [metricPattern, Pattern.ways_seq, Pattern.ways_group, List.mem_flatMap,
    List.mem_map] at way
  obtain ⟨afterKeyword, isKeyword, afterBlanks, areBlanks, _, ⟨afterNumeral, isNumeral, rfl⟩,
    afterMore, areMore, isUnit⟩ := way
  rw [← Pattern.groups_of_mem_ways_word isUnit, ← Pattern.groups_of_mem_ways_span areMore,
    Pattern.groups_of_mem_ways_word isKeyword, Pattern.groups_of_mem_ways_span areBlanks,
    Pattern.groups_of_mem_ways_span isNumeral]
  exact ⟨_, rfl⟩

theorem groups_of_find?_metricPattern
    {metric : Metric}
    {line : List Char}
    {found : Pattern.Match}
    (isFound : (metricPattern metric).find? line = some found) :
    ∃ numeral, found.groups = [numeral] := by
  obtain ⟨position, matched, -⟩ := (Pattern.find?_eq_some_iff _ _ _).mp isFound
  rw [Pattern.matchStart?_eq, Option.map_eq_some_iff] at matched
  obtain ⟨after, way, rfl⟩ := matched
  obtain ⟨numeral, groups⟩ := groups_of_mem_ways_metricPattern (List.mem_of_mem_head? way)
  exact ⟨numeral, by rw [groups]; rfl⟩

/-- The numeral of a metric is what its pattern captures. -/
theorem numeralOf?_eq_some_iff (metric : Metric) (line numeral : List Char) :
    numeralOf? metric line = some numeral ↔
      ∃ found, (metricPattern metric).find? line = some found ∧ found.groups = [numeral] := by
  rw [numeralOf?, Option.bind_eq_some_iff]
  refine exists_congr fun found => and_congr_right fun isFound => ?_
  obtain ⟨captured, groups⟩ := groups_of_find?_metricPattern isFound
  simp [groups]

theorem numeralOf?_eq_none_iff (metric : Metric) (line : List Char) :
    numeralOf? metric line = none ↔ ¬ (metricPattern metric).occursIn line = true := by
  rw [Bool.not_eq_true, Pattern.occursIn_eq_false_iff, numeralOf?, Option.bind_eq_none_iff]
  constructor
  · intro noHead
    cases isFound : (metricPattern metric).find? line with
    | none => rfl
    | some found =>
        obtain ⟨captured, groups⟩ := groups_of_find?_metricPattern isFound
        cases groups ▸ noHead found isFound
  · intro notFound found isFound
    cases notFound.symm.trans isFound

/-- The first metric, in the order of trial, whose pattern matches a line, and what the
pattern captures. -/
def FirstReading (line : List Char) (metric : Metric) (numeral : List Char) : Prop :=
  ∃ tried untried,
    metricOrder = tried ++ metric :: untried ∧
      (∀ other ∈ tried, ¬ (metricPattern other).occursIn line = true) ∧
      ∃ found, (metricPattern metric).find? line = some found ∧ found.groups = [numeral]

theorem readingOf?_eq_some_iff (line : List Char) (metric : Metric) (numeral : List Char) :
    readingOf? line = some (metric, numeral) ↔ FirstReading line metric numeral := by
  simp only [readingOf?, List.findSome?_eq_some_iff, Option.map_eq_some_iff, Prod.mk.injEq,
    Option.map_eq_none_iff, numeralOf?_eq_none_iff, FirstReading, ← numeralOf?_eq_some_iff]
  constructor
  · rintro ⟨tried, _, untried, order, ⟨_, reading, rfl, rfl⟩, unmatched⟩
    exact ⟨tried, untried, order, unmatched, reading⟩
  · rintro ⟨tried, untried, order, unmatched, reading⟩
    exact ⟨tried, metric, untried, order, ⟨numeral, reading, rfl, rfl⟩, unmatched⟩

/-! ## Assignments -/

/-- The lines with the direction that each of them belongs to, where the lines before them
select `direction`. -/
def attributed (direction : Option Direction) :
    List (List Char) → List (Option Direction × List Char)
  | [] => []
  | line :: later =>
      let selected := (headerOf? line).or direction
      (selected, line) :: attributed selected later

theorem getElem?_attributed
    (direction : Option Direction)
    (lines : List (List Char))
    (index : Nat) :
    (attributed direction lines)[index]? =
      lines[index]?.map fun line =>
        (((lines.take (index + 1)).filterMap headerOf?).getLast?.or direction, line) := by
  induction lines generalizing direction index with
  | nil => rfl
  | cons first later inductionHypothesis =>
      cases index with
      | zero => cases selected : headerOf? first <;> simp [attributed, selected]
      | succ index =>
          rw [attributed, List.getElem?_cons_succ, inductionHypothesis, List.getElem?_cons_succ,
            List.take_succ_cons]
          cases selected : headerOf? first with
          | none => rw [List.filterMap_cons_none selected, Option.none_or]
          | some direction =>
              rw [List.filterMap_cons_some selected, List.getLast?_cons, Option.some_or]
              cases ((later.take (index + 1)).filterMap headerOf?).getLast? <;> rfl

/-- The value that a line gives to a metric of a direction. -/
def valueFor
    (direction : Direction)
    (metric : Metric)
    (entry : Option Direction × List Char) : Option Float :=
  if entry.1 = some direction then
    (readingOf? entry.2).bind fun reading =>
      if reading.1 = metric then Number.readFloat? reading.2 else none
  else none

theorem valueFor_eq_some_iff
    (direction : Direction)
    (metric : Metric)
    (selected : Option Direction)
    (line : List Char)
    (value : Float) :
    valueFor direction metric (selected, line) = some value ↔
      selected = some direction ∧
        ∃ numeral, FirstReading line metric numeral ∧ Number.readFloat? numeral = some value := by
  by_cases same : selected = some direction
  · simp only [valueFor, same, ↓reduceIte, true_and, Option.bind_eq_some_iff, Prod.exists,
      readingOf?_eq_some_iff]
    constructor
    · rintro ⟨found, numeral, reading, parsed⟩
      split_ifs at parsed with isMetric
      exact ⟨numeral, isMetric ▸ reading, parsed⟩
    · rintro ⟨numeral, reading, parsed⟩
      exact ⟨metric, numeral, reading, by rwa [if_pos rfl]⟩
  · simp [valueFor, same]

namespace Scan

/-- A reading changes only the metrics. -/
theorem takeReading_frame (scan : Scan) (line : List Char) :
    (scan.takeReading line).direction = scan.direction ∧
      (scan.takeReading line).errorText = scan.errorText ∧
      (scan.takeReading line).firstLine = scan.firstLine := by
  unfold takeReading
  split
  · split <;> exact ⟨rfl, rfl, rfl⟩
  · exact ⟨rfl, rfl, rfl⟩

/-- An error text changes neither the direction nor the metrics. -/
theorem takeError_frame (scan : Scan) (line : List Char) :
    (scan.takeError line).direction = scan.direction ∧
      (scan.takeError line).metrics = scan.metrics := by
  unfold takeError
  split
  · exact ⟨rfl, rfl⟩
  · split <;> exact ⟨rfl, rfl⟩

theorem direction_step (scan : Scan) (line : List Char) :
    (scan.step line).direction = (headerOf? line).or scan.direction := by
  rw [step, (takeError_frame _ line).1, (takeReading_frame _ line).1]

/-- A line replaces the one value that it gives. -/
theorem get_metrics_takeReading
    (scan : Scan)
    (line : List Char)
    (direction : Direction)
    (metric : Metric) :
    ((scan.takeReading line).metrics.get direction).get metric =
      (valueFor direction metric (scan.direction, line)).or
        ((scan.metrics.get direction).get metric) := by
  cases selected : scan.direction with
  | none => simp [takeReading, valueFor, selected]
  | some active =>
      cases isReading : readingOf? line with
      | none => simp [takeReading, valueFor, selected, isReading]
      | some reading =>
          obtain ⟨found, numeral⟩ := reading
          cases parsed : Number.readFloat? numeral with
          | none => simp [takeReading, valueFor, selected, isReading, parsed]
          | some value =>
              simp only [takeReading, valueFor, selected, isReading, parsed, PerDirection.modify,
                Option.some.injEq, Option.bind_some]
              by_cases sameDirection : active = direction
              · subst sameDirection
                rw [PerDirection.get_set_same, if_pos rfl]
                by_cases sameMetric : found = metric
                · rw [if_pos sameMetric, sameMetric, Metrics.get_set_same, Option.some_or]
                · rw [if_neg sameMetric, Metrics.get_set_of_ne _ (Ne.symm sameMetric),
                    Option.none_or]
              · rw [PerDirection.get_set_of_ne _ (Ne.symm sameDirection), if_neg sameDirection,
                  Option.none_or]

theorem get_metrics_step
    (scan : Scan)
    (line : List Char)
    (direction : Direction)
    (metric : Metric) :
    ((scan.step line).metrics.get direction).get metric =
      (valueFor direction metric ((headerOf? line).or scan.direction, line)).or
        ((scan.metrics.get direction).get metric) := by
  rw [step, (takeError_frame _ line).2, get_metrics_takeReading]

/-- A scan keeps the last value that a line gives. -/
theorem get_metrics_foldl
    (scan : Scan)
    (lines : List (List Char))
    (direction : Direction)
    (metric : Metric) :
    ((lines.foldl step scan).metrics.get direction).get metric =
      ((attributed scan.direction lines).filterMap (valueFor direction metric)).getLast?.or
        ((scan.metrics.get direction).get metric) := by
  induction lines generalizing scan with
  | nil => rfl
  | cons line later inductionHypothesis =>
      rw [List.foldl_cons, inductionHypothesis, direction_step, get_metrics_step, attributed,
        List.filterMap_cons]
      cases valueFor direction metric ((headerOf? line).or scan.direction, line) with
      | none => rfl
      | some value =>
          rw [List.getLast?_cons, Option.some_or, Option.some_or]
          cases ((attributed ((headerOf? line).or scan.direction) later).filterMap
            (valueFor direction metric)).getLast? <;> rfl

end Scan

/-- The metrics of a scan are the last values that its lines give. -/
theorem get_scan (text : String) (direction : Direction) (metric : Metric) :
    ((scan text).get direction).get metric =
      ((attributed none (Text.lines text.toList)).filterMap
        (valueFor direction metric)).getLast? := by
  have folded := Scan.get_metrics_foldl .initial (Text.lines text.toList) direction metric
  have initial : (Scan.initial.metrics.get direction).get metric = none := by
    rw [Scan.initial, PerDirection.get_both]
    cases metric <;> rfl
  rw [initial, Option.or_none] at folded
  exact folded

/-- The line at an index assigns a value to a metric of a direction. -/
def Assigns
    (lines : List (List Char))
    (direction : Direction)
    (metric : Metric)
    (index : Nat)
    (value : Float) : Prop :=
  ∃ line numeral,
    lines[index]? = some line ∧ LatestHeader lines index direction ∧
      FirstReading line metric numeral ∧ Number.readFloat? numeral = some value

theorem assigns_iff
    (lines : List (List Char))
    (direction : Direction)
    (metric : Metric)
    (index : Nat)
    (value : Float) :
    Assigns lines direction metric index value ↔
      ∃ entry, (attributed none lines)[index]? = some entry ∧
        valueFor direction metric entry = some value := by
  simp only [getElem?_attributed, Option.map_eq_some_iff, Option.or_none]
  constructor
  · rintro ⟨line, numeral, isLine, latest, reading, parsed⟩
    refine ⟨_, ⟨line, isLine, rfl⟩, ?_⟩
    rw [valueFor_eq_some_iff, ← latestHeader_iff]
    exact ⟨latest, numeral, reading, parsed⟩
  · rintro ⟨_, ⟨line, isLine, rfl⟩, given⟩
    rw [valueFor_eq_some_iff, ← latestHeader_iff] at given
    obtain ⟨latest, numeral, reading, parsed⟩ := given
    exact ⟨line, numeral, isLine, latest, reading, parsed⟩

theorem not_assigns_of_noHeader
    {lines : List (List Char)}
    {index : Nat}
    (noHeader : ∀ position ≤ index, ∀ line, lines[position]? = some line →
      ∀ selected, ¬ Selects line selected)
    (direction : Direction)
    (metric : Metric)
    (value : Float) :
    ¬ Assigns lines direction metric index value := by
  rintro ⟨-, -, -, ⟨position, ⟨upTo, line, isLine, selects⟩, -⟩, -⟩
  exact noHeader position upTo line isLine direction selects

theorem not_assigns_of_unreadable
    {lines : List (List Char)}
    {index : Nat}
    {line : List Char}
    (isLine : lines[index]? = some line)
    {found : Metric}
    {numeral : List Char}
    (reading : FirstReading line found numeral)
    (unreadable : Number.readFloat? numeral = none)
    (direction : Direction)
    (metric : Metric)
    (value : Float) :
    ¬ Assigns lines direction metric index value := by
  rintro ⟨sameLine, sameNumeral, isSameLine, -, sameReading, parsed⟩
  cases isLine.symm.trans isSameLine
  rw [← readingOf?_eq_some_iff] at reading sameReading
  cases reading.symm.trans sameReading
  cases unreadable.symm.trans parsed

/-- A metric of a direction has the value that the last line assigning it assigns, and none
if no line assigns it. Lines before the first header assign nothing, nor do lines whose
first matching pattern captures no number. -/
theorem lastAssigned_of_scan (text : String) (direction : Direction) (metric : Metric) :
    let lines := Text.lines text.toList
    (∀ value,
      ((scan text).get direction).get metric = some value ↔
        IsLast (Assigns lines direction metric) value) ∧
      (((scan text).get direction).get metric = none ↔
        ∀ index value, ¬ Assigns lines direction metric index value) ∧
      (∀ index,
        (∀ position ≤ index, ∀ line, lines[position]? = some line →
          ∀ selected, ¬ Selects line selected) →
        ∀ value, ¬ Assigns lines direction metric index value) ∧
      ∀ index line found numeral,
        lines[index]? = some line → FirstReading line found numeral →
        Number.readFloat? numeral = none →
        ∀ value, ¬ Assigns lines direction metric index value := by
  intro lines
  refine ⟨?_, ?_, ?_, ?_⟩
  · intro value
    rw [get_scan, getLast?_filterMap_eq_some_iff]
    exact isLast_congr (fun index value => (assigns_iff _ _ _ index value).symm) value
  · rw [get_scan, getLast?_filterMap_eq_none_iff]
    exact forall₂_congr fun index value => not_congr (assigns_iff _ _ _ index value).symm
  · intro index noHeader value
    exact not_assigns_of_noHeader noHeader direction metric value
  · intro index line found numeral isLine reading unreadable value
    exact not_assigns_of_unreadable isLine reading unreadable direction metric value

end NetworkConsole.Report
