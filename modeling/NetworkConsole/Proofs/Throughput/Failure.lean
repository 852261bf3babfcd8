import NetworkConsole.Proofs.Report.Completeness
import NetworkConsole.Proofs.Throughput.Statistics

/-!
# Failed runs of a report

A report marks a direction by its rates, and the statistics judge it by that mark and by the
least rate that the histogram takes. On a report with visible text the two agree but for an
achieved rate below one bit per second, which has no error and is counted as failed.
-/

namespace NetworkConsole

/-- One of the rates is missing or zero, or the achieved rate is not at least one bit per
second. -/
def Metrics.Failing (metrics : Metrics) : Prop :=
  metrics.Incomplete ∨ ∃ rate, metrics.throughput = some rate ∧ ¬ 1 ≤ rate

/-! ## Counters -/

namespace RunStatistics

/-- One more run has failed. -/
def CountsFailure (before after : RunStatistics) : Prop :=
  after.failed = before.failed + 1 ∧ after.count = before.count

/-- One more run has added a sample. -/
def CountsSample (before after : RunStatistics) : Prop :=
  after.failed = before.failed ∧ after.count = before.count + 1

theorem CountsFailure.not_countsSample
    {before after : RunStatistics}
    (failure : CountsFailure before after) :
    ¬ CountsSample before after := by
  intro sample
  have := failure.1.symm.trans sample.1
  omega

theorem counts_of_record
    {statistics later : RunStatistics}
    {metrics : Metrics}
    (recorded : statistics.record metrics = .ok later) :
    sample? metrics = none ∧ CountsFailure statistics later ∨
      sample? metrics ≠ none ∧ CountsSample statistics later := by
  unfold record at recorded
  dsimp only at recorded
  split at recorded
  · next rate sampled =>
      split at recorded
      · next histogram counted =>
          cases recorded
          exact .inr ⟨by simp [sampled], rfl, Histogram.total_of_record? counted⟩
      · cases recorded
  · next noSample =>
      cases recorded
      exact .inl ⟨noSample, rfl, rfl⟩

/-- A run adds no sample if it has an error or no rate of at least one bit per second. -/
theorem sample?_eq_none_iff (metrics : Metrics) :
    sample? metrics = none ↔
      ∀ rate, metrics.throughput = some rate → metrics.error = none → ¬ 1 ≤ rate := by
  unfold sample?
  split
  · simp_all
  · next noRate => exact iff_of_true rfl fun rate known noError => (noRate rate known noError).elim

end RunStatistics

/-! ## Reports -/

namespace Report

/-- On a report with visible text the runs that add no sample are the failing ones. -/
theorem sample?_get_ofOutput_eq_none_iff
    {text : String}
    (visible : ∃ line ∈ Text.lines text.toList, ¬ Blank line)
    (linkage : Linkage)
    (direction : Direction) :
    RunStatistics.sample? ((ofOutput text linkage).get direction) = none ↔
      ((scan text).get direction).Failing := by
  rw [RunStatistics.sample?_eq_none_iff, get_ofOutput]
  by_cases incomplete : ((scan text).get direction).Incomplete
  -- Visible text gives the report an error, and so every incomplete direction one.
  · have hasError : (scan text).error ≠ none := by
      rw [ne_eq, error_scan_eq_none_iff]
      simpa using visible
    rw [markIncomplete_of_incomplete incomplete]
    exact iff_of_true (fun _ _ noError => absurd noError hasError) (.inl incomplete)
  · obtain ⟨rate, known, -⟩ : ∃ rate, ((scan text).get direction).throughput = some rate ∧
        ¬ (rate == 0) = true := by
      simpa [Metrics.Absent] using fun absent => incomplete (.inr absent)
    rw [markIncomplete_of_not_incomplete incomplete, error_get_scan, Metrics.Failing]
    simp [incomplete, known]

/-- A report with visible text is counted as a failed run of a direction exactly if one of the
direction's rates is missing or zero or its achieved rate is not at least one bit per second,
and else adds one sample. A direction that is reported without an error and with an achieved
rate of at least one bit per second adds a sample. -/
theorem counted_of_output
    (statistics : Statistics)
    (text : String)
    (linkage : Linkage)
    (visible : ∃ line ∈ Text.lines text.toList, ¬ Blank line) :
    ∃ later, statistics.record (ofOutput text linkage) = .ok later ∧
      ∀ direction,
        let before := statistics.get direction
        let after := later.get direction
        let scanned := (scan text).get direction
        let reported := (ofOutput text linkage).get direction
        (before.CountsFailure after ↔ scanned.Failing) ∧
          (before.CountsSample after ↔ ¬ scanned.Failing) ∧
          ∀ rate, reported.error = none → reported.throughput = some rate → 1 ≤ rate →
            before.CountsSample after := by
  obtain ⟨later, recorded, -⟩ := statistics.exists_record_eq (ofOutput text linkage)
  refine ⟨later, recorded, fun direction => ?_⟩
  intro before after scanned reported
  have noSample_iff : RunStatistics.sample? reported = none ↔ scanned.Failing :=
    sample?_get_ofOutput_eq_none_iff visible linkage direction
  rcases RunStatistics.counts_of_record (Statistics.record_get recorded direction) with
    ⟨noSample, failure⟩ | ⟨hasSample, sample⟩
  · have failing := noSample_iff.mp noSample
    refine ⟨iff_of_true failure failing,
      iff_of_false failure.not_countsSample (not_not.mpr failing), ?_⟩
    intro rate noError known atLeast
    exact absurd atLeast ((RunStatistics.sample?_eq_none_iff _).mp noSample rate known noError)
  · have notFailing := mt noSample_iff.mpr hasSample
    exact ⟨iff_of_false (fun failure => failure.not_countsSample sample) notFailing,
      iff_of_true sample notFailing, fun _ _ _ _ => sample⟩

/-- Output with the results of one direction counts a sample there and a failed run in the
other direction. -/
theorem counted_one_direction :
    let text := "S->C results\nAttempted bandwidth: 80000 bps\nAchieved bandwidth: 78000 bps"
    (∃ line ∈ Text.lines text.toList, ¬ Blank line) ∧
      ∃ later, Statistics.empty.record (ofOutput text .initial) = .ok later ∧
        (Statistics.empty.get .clientToServer).CountsFailure (later.get .clientToServer) ∧
        (Statistics.empty.get .serverToClient).CountsSample (later.get .serverToClient) := by
  intro text
  have visible : ∃ line ∈ Text.lines text.toList, ¬ Blank line :=
    ⟨"S->C results".toList, by decide, fun blank => absurd (blank 'S' (by decide)) (by decide)⟩
  obtain ⟨later, recorded, counted⟩ := counted_of_output .empty text .initial visible
  have toServer := counted .clientToServer
  have toClient := counted .serverToClient
  refine ⟨visible, later, recorded, ?_, ?_⟩
  · rw [toServer.1]
    exact .inl ((Metrics.isComplete_eq_false_iff _).mp (by decide +kernel))
  · exact toClient.2.2 78000 (by decide +kernel) (by decide +kernel) (by decide +kernel)

/-- A direction that achieved half a bit per second is complete and has no error, and its run
is counted as failed. -/
theorem failed_without_error :
    let text := "C->S results\nAttempted bandwidth: 80000 bps\nAchieved bandwidth: 0.5 bps"
    (∃ line ∈ Text.lines text.toList, ¬ Blank line) ∧
      (∀ direction, (Linkage.initial.panel direction).checkRanges = .ok ()) ∧
      ¬ ((scan text).get .clientToServer).Incomplete ∧
      ((ofOutput text .initial).get .clientToServer).error = none ∧
      ∃ later, Statistics.empty.record (ofOutput text .initial) = .ok later ∧
        (Statistics.empty.get .clientToServer).CountsFailure (later.get .clientToServer) := by
  intro text
  refine ⟨⟨"C->S results".toList, by decide, fun blank =>
    absurd (blank 'C' (by decide)) (by decide)⟩, fun direction => by cases direction <;> rfl, ?_,
    by decide +kernel, ?_⟩
  · rw [← Metrics.isComplete_eq_false_iff]
    decide +kernel
  · obtain ⟨later, recorded, -⟩ := Statistics.empty.exists_record_eq (ofOutput text .initial)
    have noSample : RunStatistics.sample? ((ofOutput text .initial).get .clientToServer) = none :=
      by decide +kernel
    refine ⟨later, recorded, ?_⟩
    rcases RunStatistics.counts_of_record (Statistics.record_get recorded .clientToServer) with
      ⟨-, failure⟩ | ⟨hasSample, -⟩
    · exact failure
    · exact absurd noSample hasSample

end Report

end NetworkConsole
