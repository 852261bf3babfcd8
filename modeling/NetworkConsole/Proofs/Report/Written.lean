import NetworkConsole.Proofs.Report.Amount
import NetworkConsole.Proofs.Text.Lines

/-!
# Written reports

A test client writes its results part by part: the headline of a direction and then lines
with one quantity each. Reading such a report gives back the last number that was written
for each metric of each direction, whatever lines without a header stand before the
results, and nothing for a metric that was not written.
-/

namespace NetworkConsole.Report

open Text (Pattern Alike Cursor LineEnd)
open Text.Pattern (FirstOccurrence)
open Number (Numeral)

/-! ## Writing -/

/-- A numeral and the number of spaces between it and its unit. -/
structure Quantity where
  numeral : Numeral
  spaces : Nat

/-- A quantity in a unit. -/
def Quantity.text (quantity : Quantity) (unit : String) : List Char :=
  quantity.numeral.text ++ (List.replicate quantity.spaces ' ' ++ unit.toList)

/-- A line of the results of a direction. -/
inductive Entry
  | attempted (bits megabits : Quantity)
  | achieved (bits megabits : Quantity)
  | variance (milliseconds : Quantity)
  | average (milliseconds : Quantity)
  | least (milliseconds : Quantity)
  | greatest (milliseconds : Quantity)
  | loss (percent : Quantity)

namespace Entry

/-- What a line is about. -/
def label : Entry → String
  | attempted _ _ => "Attempted bandwidth"
  | achieved _ _ => "Achieved bandwidth"
  | variance _ => "Interarrival time variance"
  | average _ => "Average interarrival time"
  | least _ => "Interarrival time min"
  | greatest _ => "Interarrival time max"
  | loss _ => "Loss rate"

/-- The quantities of a line. A rate is given in two units. -/
def amounts : Entry → List Char
  | attempted bits megabits | achieved bits megabits =>
      bits.text "bps" ++ " / ".toList ++ megabits.text "Mbps"
  | variance milliseconds | average milliseconds | least milliseconds | greatest milliseconds =>
      milliseconds.text "ms"
  | loss percent => percent.text "%"

/-- The characters of a line. -/
def text (entry : Entry) : List Char := entry.label.toList ++ ':' :: ' ' :: entry.amounts

/-- The metric that a line tells. -/
def metric? : Entry → Option Metric
  | attempted _ _ => some .bandwidth
  | achieved _ _ => some .throughput
  | variance _ => some .arrivalVariance
  | average _ => some .arrivalAverage
  | least _ => some .arrivalMin
  | greatest _ => some .arrivalMax
  | loss _ => none

/-- The numeral that stands first in a line. -/
def numeral : Entry → Numeral
  | attempted bits _ | achieved bits _ => bits.numeral
  | variance quantity | average quantity | least quantity | greatest quantity | loss quantity =>
      quantity.numeral

example :
    let bits : Numeral :=
      ⟨false, ['8', '0', '0', '0', '0'], none, List.all_eq_true.mp rfl, by decide⟩
    let megabits : Numeral :=
      ⟨false, ['0'], some ['0', '8'], List.all_eq_true.mp rfl, by decide⟩
    (attempted ⟨bits, 1⟩ ⟨megabits, 1⟩).text =
      "Attempted bandwidth: 80000 bps / 0.08 Mbps".toList := by
  decide

end Entry

/-- The results of a direction. -/
structure Results where
  direction : Direction
  entries : List Entry

/-- The line that starts the results of a direction. -/
def headline : Direction → List Char
  | .clientToServer => "C->S results".toList
  | .serverToClient => "S->C results".toList

/-- The lines of the results of a direction. -/
def Results.lines (results : Results) : List (List Char) :=
  headline results.direction :: results.entries.map Entry.text

/-- A line before the results, which is no header. -/
structure Remark where
  text : List Char
  singleLine : '\n' ∉ text
  noHeader : ∀ direction, ¬ (header direction).occursIn text = true

/-- Remarks and then results, with line ends between the lines and, if `closed`, one at the
end. -/
def written
    (lineEnd : LineEnd)
    (closed : Bool)
    (remarks : List Remark)
    (parts : List Results) : String :=
  String.ofList <| lineEnd.join <|
    remarks.map Remark.text ++ (parts.flatMap Results.lines ++ if closed then [[]] else [])

/-- The numerals that are written for a metric of a direction. -/
def numerals (parts : List Results) (direction : Direction) (metric : Metric) : List Numeral :=
  (parts.filter (·.direction = direction)).flatMap fun results =>
    (results.entries.filter (·.metric? = some metric)).map Entry.numeral

/-! ## Characters of written lines -/

theorem isNumeralCharacter_of_mem_text
    {numeral : Numeral}
    {character : Char}
    (member : character ∈ numeral.text) :
    isNumeralCharacter character = true := by
  rcases Numeral.mem_text member with digit | point | sign
  · simp [isNumeralCharacter, digit]
  · simp [isNumeralCharacter, point]
  · simp [isNumeralCharacter, sign]

/-- Characters that stand in headers, after labels and at the ends of lines only. -/
def isMark (character : Char) : Bool :=
  character = '>' || character = ':' || character = '\n' || character = '\r'

theorem isMark_of_mem
    {text : List Char}
    (plain : text.any isMark = false)
    {character : Char}
    (member : character ∈ text) :
    isMark character = false :=
  Bool.eq_false_iff.mpr (List.any_eq_false.mp plain character member)

theorem isMark_of_isNumeralCharacter
    {character : Char}
    (isNumeral : isNumeralCharacter character = true) :
    isMark character = false := by
  rw [Bool.eq_false_iff]
  intro mark
  simp only [isMark, Bool.or_eq_true, decide_eq_true_eq] at mark
  rcases mark with ((rfl | rfl) | rfl) | rfl <;> cases isNumeral

theorem isMark_of_mem_quantity
    {quantity : Quantity}
    {unit : String}
    (plain : unit.toList.any isMark = false)
    {character : Char}
    (member : character ∈ quantity.text unit) :
    isMark character = false := by
  rcases List.mem_append.mp member with inNumeral | later
  · exact isMark_of_isNumeralCharacter (isNumeralCharacter_of_mem_text inNumeral)
  · rcases List.mem_append.mp later with space | inUnit
    · rw [List.eq_of_mem_replicate space]
      rfl
    · exact isMark_of_mem plain inUnit

theorem isMark_of_mem_amounts
    {entry : Entry}
    {character : Char}
    (member : character ∈ entry.amounts) :
    isMark character = false := by
  cases entry with
  | attempted bits megabits | achieved bits megabits =>
      simp only [Entry.amounts, List.mem_append] at member
      rcases member with (inBits | inSeparator) | inMegabits
      · exact isMark_of_mem_quantity rfl inBits
      · exact isMark_of_mem rfl inSeparator
      · exact isMark_of_mem_quantity rfl inMegabits
  | variance | average | least | greatest | loss => exact isMark_of_mem_quantity rfl member

theorem isMark_of_mem_label
    {entry : Entry}
    {character : Char}
    (member : character ∈ entry.label.toList) :
    isMark character = false := by
  have plain : entry.label.toList.any isMark = false := by
    cases entry <;> rw [Entry.label, String.toList_ofList] <;> decide
  exact isMark_of_mem plain member

theorem notMem_amounts {mark : Char} (marks : isMark mark = true) (entry : Entry) :
    mark ∉ entry.amounts := by
  intro member
  cases marks.symm.trans (isMark_of_mem_amounts member)

theorem notMem_label {mark : Char} (marks : isMark mark = true) (entry : Entry) :
    mark ∉ entry.label.toList := by
  intro member
  cases marks.symm.trans (isMark_of_mem_label member)

/-- The only mark in a line is the colon after its label. -/
theorem notMem_text
    {mark : Char}
    (marks : isMark mark = true)
    (notColon : mark ≠ ':')
    (entry : Entry) :
    mark ∉ entry.text := by
  have notSpace : mark ≠ ' ' := by
    rintro rfl
    cases marks
  simp only [Entry.text, List.mem_append, List.mem_cons, not_or]
  exact ⟨notMem_label marks entry, notColon, notSpace, notMem_amounts marks entry⟩

/-! ## Headers of written lines -/

theorem headerOf?_text (entry : Entry) : headerOf? entry.text = none := by
  rw [headerOf?_eq_none_iff]
  intro direction occurs
  have noArrow : '>' ∉ entry.text := notMem_text rfl (by decide) entry
  cases direction <;>
    exact noArrow (Pattern.mem_of_occursIn_word occurs (by decide) rfl (by decide))

theorem headerOf?_headline (direction : Direction) :
    headerOf? (headline direction) = some direction := by
  cases direction <;> decide

/-! ## Readings of written lines -/

theorem readingOf?_headline (direction : Direction) : readingOf? (headline direction) = none := by
  have noColon : ':' ∉ headline direction := by cases direction <;> decide
  rw [readingOf?, List.findSome?_eq_none_iff]
  intro metric _
  rw [Option.map_eq_none_iff, numeralOf?_eq_none_iff]
  intro occurs
  have hasColon : ':' ∈ (keyword metric).toList := by
    cases metric <;> rw [keyword, String.toList_ofList] <;> decide
  exact noColon
    (Pattern.mem_of_occursIn_word (Pattern.occursIn_of_seq occurs) hasColon rfl (by decide))

/-- Only the label of a line can hold the keyword of a metric, and it ends where the label
ends. -/
theorem metric?_of_occursIn
    {metric : Metric}
    {entry : Entry}
    (occurs : (metricPattern metric).occursIn entry.text = true) :
    entry.metric? = some metric := by
  obtain ⟨before, mark, after, split, alike⟩ :=
    (Pattern.occursIn_word_iff _ _).mp (Pattern.occursIn_of_seq occurs)
  have stemColon : (keyword metric).toList = (keyword metric).toList.dropLast ++ [':'] := by
    cases metric <;> rw [keyword, String.toList_ofList] <;> decide
  obtain ⟨stem, colons, rfl, sameStem, sameColon⟩ :
      ∃ stem colons, mark = stem ++ colons ∧
        stem.map Text.fold = (keyword metric).toList.dropLast.map Text.fold ∧
        colons.map Text.fold = [':'] := by
    rw [Alike, stemColon, List.map_append] at alike
    exact List.map_eq_append_iff.mp alike
  obtain ⟨colon, rfl, isColon⟩ := List.map_eq_singleton_iff.mp sameColon
  rw [Text.eq_of_fold_eq rfl isColon] at split
  -- Both sides are split at their only colon.
  have atColon : entry.label.toList ++ ':' :: (' ' :: entry.amounts) =
      (before ++ stem) ++ ':' :: after := by
    simpa [Entry.text] using split
  have noColon : ':' ∉ entry.label.toList := notMem_label rfl entry
  have noLaterColon : ':' ∉ ' ' :: entry.amounts := by
    simpa using notMem_amounts rfl entry
  have inLabel : before ++ stem = entry.label.toList :=
    ((List.append_cons_inj_of_notMem noColon noLaterColon).mp atColon).1.symm
  have isSuffix : (keyword metric).toList.dropLast.map Text.fold <:+
      entry.label.toList.map Text.fold := by
    rw [← sameStem, ← inLabel, List.map_append]
    exact List.suffix_append _ _
  revert isSuffix
  cases entry <;> cases metric <;>
    rw [Entry.label, Entry.metric?, keyword, String.toList_ofList, String.toList_ofList] <;> decide

theorem dropWhile_spaces
    (spaces : Nat)
    {later : List Char}
    (noBlank : ∀ character ∈ later.head?, Text.isBlank character = false) :
    (List.replicate spaces ' ' ++ later).dropWhile Text.isBlank = later := by
  refine (Number.span_append (fun character space => ?_) noBlank).2
  rw [List.eq_of_mem_replicate space]
  rfl

theorem isBlank_of_mem_head?_text
    {numeral : Numeral}
    {later : List Char}
    {character : Char}
    (isFirst : character ∈ (numeral.text ++ later).head?) :
    Text.isBlank character = false := by
  rw [List.head?_append_of_ne_nil _ numeral.text_ne_nil] at isFirst
  exact isBlank_of_isNumeralCharacter
    (isNumeralCharacter_of_mem_text (List.mem_of_mem_head? isFirst))

theorem isNumeralCharacter_of_mem_head?_spaces
    {later : List Char}
    (noNumeral : ∀ character ∈ later.head?, isNumeralCharacter character = false)
    (spaces : Nat) :
    ∀ character ∈ (List.replicate spaces ' ' ++ later).head?,
      isNumeralCharacter character = false := by
  cases spaces with
  | zero => exact noNumeral
  | succ spaces =>
      rintro _ ⟨⟩
      rfl

/-- The best way to read an amount takes its blanks and its numeral whole. -/
theorem head?_ways_amountPattern_text
    (metric : Metric)
    (quantity : Quantity)
    (tail : List Char) :
    ((amountPattern metric).ways ⟨' ' :: (quantity.text (unit metric) ++ tail), []⟩).head? =
      some ⟨tail, [quantity.numeral.text]⟩ := by
  obtain ⟨numeral, spaces⟩ := quantity
  have noNumeral : ∀ character ∈ ((unit metric).toList ++ tail).head?,
      isNumeralCharacter character = false := by
    cases metric <;> rintro _ ⟨⟩ <;> rfl
  have noBlank : ∀ character ∈ ((unit metric).toList ++ tail).head?,
      Text.isBlank character = false := by
    cases metric <;> rintro _ ⟨⟩ <;> rfl
  have amount : ' ' :: (Quantity.text ⟨numeral, spaces⟩ (unit metric) ++ tail) =
      List.replicate 1 ' ' ++
        (numeral.text ++ (List.replicate spaces ' ' ++ ((unit metric).toList ++ tail))) := by
    simp [Quantity.text]
  have numeralCharacters : ∀ character ∈ numeral.text, isNumeralCharacter character = true :=
    fun _ => isNumeralCharacter_of_mem_text
  have cut := Number.span_append numeralCharacters
    (isNumeralCharacter_of_mem_head?_spaces noNumeral spaces)
  rw [head?_ways_amountPattern, amount, dropWhile_spaces 1 fun _ => isBlank_of_mem_head?_text,
    cut.1, cut.2, dropWhile_spaces spaces noBlank, Pattern.ways_word_of_alike rfl,
    List.head?_singleton]

/-- The label of a line that tells a metric is the keyword of the metric. -/
theorem alike_keyword
    {entry : Entry}
    {metric : Metric}
    (tells : entry.metric? = some metric) :
    Alike (entry.label.toList ++ [':']) (keyword metric).toList := by
  cases entry <;> cases tells <;>
    rw [Alike, Entry.label, keyword, String.toList_ofList, String.toList_ofList] <;> decide

/-- A line that tells a metric has its first quantity in the unit of the metric. -/
theorem exists_quantity
    {entry : Entry}
    {metric : Metric}
    (tells : entry.metric? = some metric) :
    ∃ quantity tail, quantity.numeral = entry.numeral ∧
      entry.amounts = Quantity.text quantity (unit metric) ++ tail := by
  cases entry with
  | attempted bits megabits | achieved bits megabits =>
      cases tells
      exact ⟨bits, " / ".toList ++ megabits.text "Mbps", rfl, List.append_assoc _ _ _⟩
  | variance quantity | average quantity | least quantity | greatest quantity =>
      cases tells
      exact ⟨quantity, [], rfl, (List.append_nil _).symm⟩
  | loss => cases tells

/-- A line gives its first numeral for the metric that it tells. -/
theorem numeralOf?_text_of_tells
    {entry : Entry}
    {metric : Metric}
    (tells : entry.metric? = some metric) :
    numeralOf? metric entry.text = some entry.numeral.text := by
  obtain ⟨quantity, tail, same, amounts⟩ := exists_quantity tells
  have occurrence : FirstOccurrence (keyword metric).toList entry.text []
      (entry.label.toList ++ [':']) (' ' :: entry.amounts) := {
    split := by simp [Entry.text]
    alike := alike_keyword tells
    first := fun _ _ _ _ _ => Nat.zero_le _ }
  have way := head?_ways_amountPattern_text metric quantity tail
  rw [← amounts] at way
  rw [numeralOf?_eq_some_iff, metricPattern_eq, ← same]
  exact Pattern.find?_seq_word occurrence way

theorem numeralOf?_text (entry : Entry) (metric : Metric) :
    numeralOf? metric entry.text =
      if entry.metric? = some metric then some entry.numeral.text else none := by
  split_ifs with tells
  · exact numeralOf?_text_of_tells tells
  · rw [numeralOf?_eq_none_iff]
    exact mt metric?_of_occursIn tells

/-- A line gives no number but that of the metric that it tells. -/
theorem readingOf?_text (entry : Entry) :
    readingOf? entry.text = entry.metric?.map (·, entry.numeral.text) := by
  simp only [readingOf?, metricOrder, numeralOf?_text]
  cases entry.metric? with
  | none => rfl
  | some metric => cases metric <;> rfl

/-! ## Lines of written reports -/

theorem lines_ne_nil_of_mem {results : Results} {line : List Char} (isLine : line ∈ results.lines) :
    line ≠ [] ∧ '\n' ∉ line ∧ '\r' ∉ line := by
  rcases List.mem_cons.mp isLine with rfl | isEntry
  · cases results.direction <;> decide
  · obtain ⟨entry, -, rfl⟩ := List.mem_map.mp isEntry
    exact ⟨List.append_ne_nil_of_right_ne_nil _ (List.cons_ne_nil _ _),
      notMem_text rfl (by decide) entry, notMem_text rfl (by decide) entry⟩

/-- A written report is read as lines without a header and then the lines of its results. -/
theorem lines_written
    (lineEnd : LineEnd)
    (closed : Bool)
    (remarks : List Remark)
    (parts : List Results) :
    ∃ quiet, (∀ line ∈ quiet, headerOf? line = none) ∧
      Text.lines (written lineEnd closed remarks parts).toList =
        quiet ++ parts.flatMap Results.lines := by
  have singleLines : ∀ line ∈ remarks.map Remark.text, '\n' ∉ line := by
    rw [List.forall_mem_map]
    exact fun remark _ => remark.singleLine
  obtain ⟨quiet, fromRemarks, split⟩ := LineEnd.lines_join_append lineEnd singleLines
    (parts.flatMap Results.lines ++ if closed then [[]] else [])
  refine ⟨quiet, fun line isQuiet => ?_, ?_⟩
  · obtain ⟨_, isRemark, isPrefix⟩ := fromRemarks line isQuiet
    obtain ⟨remark, -, rfl⟩ := List.mem_map.mp isRemark
    rw [headerOf?_eq_none_iff]
    intro direction occurs
    apply remark.noHeader direction
    cases direction <;> exact Pattern.occursIn_word_of_isPrefix isPrefix occurs
  · have plain : ∀ line ∈ parts.flatMap Results.lines, line ≠ [] ∧ '\n' ∉ line ∧ '\r' ∉ line := by
      intro line isLine
      obtain ⟨results, -, isResult⟩ := List.mem_flatMap.mp isLine
      exact lines_ne_nil_of_mem isResult
    rw [written, String.toList_ofList, split, LineEnd.lines_join lineEnd closed
      (fun isEmpty => (plain [] isEmpty).1 rfl)
      (fun line isLine => (plain line isLine).2.1)
      (fun line isLine => (plain line isLine).2.2)]

/-! ## Numbers of written reports -/

/-- Lines without a header belong to the direction selected before them. -/
theorem attributed_append
    (direction : Option Direction)
    {first : List (List Char)}
    (noHeader : ∀ line ∈ first, headerOf? line = none)
    (second : List (List Char)) :
    attributed direction (first ++ second) =
      first.map (direction, ·) ++ attributed direction second := by
  induction first with
  | nil => rfl
  | cons line later inductionHypothesis =>
      rw [List.forall_mem_cons] at noHeader
      rw [List.cons_append, attributed, noHeader.1, Option.none_or,
        inductionHypothesis noHeader.2, List.map_cons, List.cons_append]

/-- The lines of the results of a direction belong to it. -/
theorem attributed_flatMap_lines (direction : Option Direction) (parts : List Results) :
    attributed direction (parts.flatMap Results.lines) =
      parts.flatMap fun results => results.lines.map (some results.direction, ·) := by
  induction parts generalizing direction with
  | nil => rfl
  | cons results parts inductionHypothesis =>
      have noHeader : ∀ line ∈ results.entries.map Entry.text, headerOf? line = none := by
        rw [List.forall_mem_map]
        exact fun entry _ => headerOf?_text entry
      rw [List.flatMap_cons, List.flatMap_cons, Results.lines, List.cons_append, attributed,
        headerOf?_headline, Option.some_or, attributed_append _ noHeader, inductionHypothesis,
        List.map_cons, List.cons_append]

theorem valueFor_headline
    (direction selected : Direction)
    (metric : Metric) :
    valueFor direction metric (some selected, headline selected) = none := by
  rw [valueFor, readingOf?_headline]
  exact ite_self none

theorem valueFor_text
    (direction : Direction)
    (metric : Metric)
    (entry : Entry) :
    valueFor direction metric (some direction, entry.text) =
      if entry.metric? = some metric then some entry.numeral.value else none := by
  rw [valueFor, readingOf?_text, if_pos rfl]
  cases entry.metric? with
  | none => rfl
  | some told =>
      rw [Option.map_some, Option.bind_some, Numeral.readFloat?_text]
      simp only [Option.some.injEq]

/-- Results of a direction give their numbers to the metrics of that direction alone. -/
theorem filterMap_valueFor_lines
    (direction : Direction)
    (metric : Metric)
    (results : Results) :
    (results.lines.map (some results.direction, ·)).filterMap (valueFor direction metric) =
      if results.direction = direction then
        ((results.entries.filter (·.metric? = some metric)).map Entry.numeral).map Numeral.value
      else [] := by
  split_ifs with same
  · subst same
    rw [Results.lines, List.map_cons, List.filterMap_cons_none (valueFor_headline _ _ _)]
    induction results.entries with
    | nil => rfl
    | cons entry entries inductionHypothesis =>
        simp only [List.map_cons, List.filterMap_cons, valueFor_text, List.filter_cons,
          decide_eq_true_eq]
        split_ifs with tells
        · rw [inductionHypothesis]
          rfl
        · exact inductionHypothesis
  · rw [List.filterMap_eq_nil_iff, List.forall_mem_map]
    intro line _
    exact if_neg fun selected => same (Option.some.inj selected)

theorem numerals_cons
    (results : Results)
    (parts : List Results)
    (direction : Direction)
    (metric : Metric) :
    numerals (results :: parts) direction metric =
      (if results.direction = direction then
        (results.entries.filter (·.metric? = some metric)).map Entry.numeral
      else []) ++ numerals parts direction metric := by
  unfold numerals
  split_ifs with same <;> simp [same]

theorem filterMap_valueFor_flatMap
    (direction : Direction)
    (metric : Metric)
    (parts : List Results) :
    (parts.flatMap fun results => results.lines.map (some results.direction, ·)).filterMap
        (valueFor direction metric) =
      (numerals parts direction metric).map Numeral.value := by
  induction parts with
  | nil => rfl
  | cons results parts inductionHypothesis =>
      rw [List.flatMap_cons, List.filterMap_append, filterMap_valueFor_lines, inductionHypothesis,
        numerals_cons, List.map_append]
      split_ifs <;> rfl

/-- Reading a written report gives back, for each metric of each direction, the last number
that was written for it as the float nearest to it, and nothing where none was written. -/
theorem lastWritten_of_scan
    (lineEnd : LineEnd)
    (closed : Bool)
    (remarks : List Remark)
    (parts : List Results)
    (direction : Direction)
    (metric : Metric) :
    ((scan (written lineEnd closed remarks parts)).get direction).get metric =
        (numerals parts direction metric).getLast?.map Numeral.value ∧
      ∀ numeral ∈ numerals parts direction metric,
        Binary64.IsNearest numeral.rational numeral.value := by
  refine ⟨?_, fun numeral _ => numeral.isNearest_value⟩
  obtain ⟨quiet, noHeader, split⟩ := lines_written lineEnd closed remarks parts
  have nothing : (quiet.map ((none : Option Direction), ·)).filterMap
      (valueFor direction metric) = [] := by
    rw [List.filterMap_eq_nil_iff, List.forall_mem_map]
    exact fun line _ => rfl
  rw [get_scan, split, attributed_append none noHeader, attributed_flatMap_lines,
    List.filterMap_append, nothing, List.nil_append, filterMap_valueFor_flatMap, List.getLast?_map]

end NetworkConsole.Report
