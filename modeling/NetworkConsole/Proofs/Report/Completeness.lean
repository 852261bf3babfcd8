import NetworkConsole.Proofs.Report.ErrorText

/-!
# Incomplete directions of a report

A direction of a report is incomplete if one of its rates is missing or zero. It is marked
with the error of the report, so that a report without visible text marks no direction.
-/

namespace NetworkConsole

namespace Metrics

/-- A rate is missing or zero. -/
def Absent (rate : Option Float) : Prop := ∀ value, rate = some value → (value == 0) = true

/-- One of the rates is missing or zero. -/
def Incomplete (metrics : Metrics) : Prop := Absent metrics.bandwidth ∨ Absent metrics.throughput

theorem isPresent_eq_false_iff (rate : Option Float) : isPresent rate = false ↔ Absent rate := by
  cases rate <;> simp [isPresent, Absent, bne]

theorem isComplete_eq_false_iff (metrics : Metrics) :
    metrics.isComplete = false ↔ metrics.Incomplete := by
  rw [isComplete, Bool.and_eq_false_iff, isPresent_eq_false_iff, isPresent_eq_false_iff, Incomplete]

end Metrics

namespace Report

/-! ## Marks -/

theorem markIncomplete_of_incomplete
    {metrics : Metrics}
    (incomplete : metrics.Incomplete)
    (error : Option String)
    (target : Float) :
    markIncomplete error target metrics = { metrics with error, bandwidth := some target } := by
  rw [markIncomplete, (metrics.isComplete_eq_false_iff).mpr incomplete]
  rfl

theorem markIncomplete_of_not_incomplete
    {metrics : Metrics}
    (complete : ¬ metrics.Incomplete)
    (error : Option String)
    (target : Float) :
    markIncomplete error target metrics = metrics := by
  rw [← metrics.isComplete_eq_false_iff, Bool.not_eq_false] at complete
  rw [markIncomplete, if_pos complete]

theorem get_ofOutput (text : String) (linkage : Linkage) (direction : Direction) :
    (ofOutput text linkage).get direction =
      markIncomplete (scan text).error (linkage.panel direction).targetBps
        ((scan text).get direction) := by
  rw [ofOutput, backfill, get, PerDirection.get_tabulate]

/-! ## Errors of directions -/

theorem Scan.error_takeReading (scan : Scan) (line : List Char) (direction : Direction) :
    ((scan.takeReading line).metrics.get direction).error =
      (scan.metrics.get direction).error := by
  unfold takeReading
  split
  · next active metric numeral selected isReading =>
      split
      · rw [PerDirection.modify]
        by_cases same : direction = active
        · rw [same, PerDirection.get_set_same, Metrics.error_set]
        · rw [PerDirection.get_set_of_ne _ same]
      · rfl
  · rfl

/-- A scan gives no direction an error of its own. -/
theorem error_get_scan (text : String) (direction : Direction) :
    ((scan text).get direction).error = none := by
  have kept : ∀ lines scan, ((List.foldl Scan.step scan lines).metrics.get direction).error =
      (scan.metrics.get direction).error := by
    intro lines
    induction lines with
    | nil => exact fun _ => rfl
    | cons line later inductionHypothesis =>
        intro scan
        rw [List.foldl_cons, inductionHypothesis, Scan.step, (Scan.takeError_frame _ line).2,
          Scan.error_takeReading]
  have initial : (Scan.initial.metrics.get direction).error = none := by
    rw [Scan.initial, PerDirection.get_both]
    rfl
  exact (kept _ .initial).trans initial

/-- A direction of a report has an error exactly if it is incomplete and the output is not
all blank. An incomplete direction has the target of its dials as attempted rate and all
else as it was scanned, and a complete one is as it was scanned. -/
theorem marked_of_output (text : String) (linkage : Linkage) (direction : Direction) :
    let scanned := (scan text).get direction
    let marked := (ofOutput text linkage).get direction
    (marked.error.isSome = true ↔
      scanned.Incomplete ∧ ∃ line ∈ Text.lines text.toList, ¬ Blank line) ∧
      (scanned.Incomplete →
        marked.error = (scan text).error ∧
          marked.bandwidth = some (linkage.panel direction).targetBps ∧
          ∀ metric, metric ≠ .bandwidth → marked.get metric = scanned.get metric) ∧
      (¬ scanned.Incomplete → marked = scanned) := by
  intro scanned marked
  have isMarked : marked = markIncomplete (scan text).error (linkage.panel direction).targetBps
      scanned := get_ofOutput text linkage direction
  by_cases incomplete : scanned.Incomplete
  · rw [markIncomplete_of_incomplete incomplete] at isMarked
    have error : marked.error = (scan text).error := by rw [isMarked]
    refine ⟨?_, fun _ => ⟨error, ?_, ?_⟩, fun complete => absurd incomplete complete⟩
    · rw [error, Option.isSome_iff_ne_none, ne_eq, error_scan_eq_none_iff]
      simp [incomplete]
    · rw [isMarked]
    · intro metric notBandwidth
      rw [isMarked]
      cases metric with
      | bandwidth => exact absurd rfl notBandwidth
      | _ => rfl
  · rw [markIncomplete_of_not_incomplete incomplete] at isMarked
    refine ⟨?_, fun incompleteToo => absurd incompleteToo incomplete, fun _ => isMarked⟩
    rw [isMarked, error_get_scan]
    simp [incomplete]

/-- Empty output leaves both directions incomplete and marks neither, at dials that are in
range. -/
theorem unmarked_of_empty :
    (∀ direction, (Linkage.initial.panel direction).checkRanges = .ok ()) ∧
      ∀ direction,
        ((scan "").get direction).Incomplete ∧
          ((ofOutput "" .initial).get direction).error = none := by
  have noLine : Text.lines "".toList = [] := rfl
  have incomplete : ∀ direction, ((scan "").get direction).Incomplete := by
    intro direction
    left
    have absent : ((scan "").get direction).bandwidth = none := by cases direction <;> rfl
    simp [Metrics.Absent, absent]
  refine ⟨fun direction => by cases direction <;> rfl, fun direction => ⟨incomplete direction, ?_⟩⟩
  rw [get_ofOutput, markIncomplete_of_incomplete (incomplete direction)]
  rw [error_scan_eq_none_iff, noLine]
  simp

end Report
end NetworkConsole
