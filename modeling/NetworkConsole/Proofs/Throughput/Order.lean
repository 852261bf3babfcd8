import Mathlib.Data.List.Perm.Basic
import NetworkConsole.Proofs.Throughput.Statistics

/-!
# Order of runs

Counting one number and then another fills the buckets of a histogram as counting them the
other way round does. What statistics tell about runs is therefore the same in every order
of the runs, but for the delivery ratio, which is that of the last one.
-/

namespace NetworkConsole

/-! ## Buckets -/

namespace Histogram

section Buckets

variable {bucket first : Nat} (count : Nat) (rest : List (Nat × Nat))

theorem countBucket_of_lt (below : bucket < first) :
    countBucket bucket ((first, count) :: rest) = (bucket, 1) :: (first, count) :: rest := by
  rw [countBucket, if_pos below]

theorem countBucket_same :
    countBucket bucket ((bucket, count) :: rest) = (bucket, count + 1) :: rest := by
  rw [countBucket, if_neg (Nat.lt_irrefl bucket), if_pos rfl]

theorem countBucket_of_gt (above : first < bucket) :
    countBucket bucket ((first, count) :: rest) = (first, count) :: countBucket bucket rest := by
  rw [countBucket, if_neg (Nat.lt_asymm above), if_neg (Nat.ne_of_gt above)]

end Buckets

/-- The hit of a lower bucket leaves the place of a higher one, and does not notice it. -/
theorem countBucket_comm_of_lt
    {lower higher : Nat}
    (below : lower < higher)
    (counts : List (Nat × Nat)) :
    countBucket lower (countBucket higher counts) =
      countBucket higher (countBucket lower counts) := by
  induction counts with
  | nil =>
      rw [countBucket, countBucket_of_lt _ _ below, countBucket, countBucket_of_gt _ _ below,
        countBucket]
  | cons entry rest inductionHypothesis =>
      obtain ⟨bucket, count⟩ := entry
      rcases Nat.lt_trichotomy lower bucket with before | rfl | after
      -- The lower bucket is put in front, whatever becomes of the higher one.
      · rw [countBucket_of_lt count rest before, countBucket_of_gt _ _ below]
        rcases Nat.lt_trichotomy higher bucket with higherBefore | rfl | higherAfter
        · rw [countBucket_of_lt count rest higherBefore, countBucket_of_lt _ _ below]
        · rw [countBucket_same, countBucket_of_lt _ _ below]
        · rw [countBucket_of_gt count rest higherAfter, countBucket_of_lt _ _ before]
      · rw [countBucket_same, countBucket_of_gt _ _ below, countBucket_of_gt _ _ below,
          countBucket_same]
      · have higherAfter := Nat.lt_trans after below
        rw [countBucket_of_gt count rest after, countBucket_of_gt count _ higherAfter,
          countBucket_of_gt count _ higherAfter, countBucket_of_gt count _ after,
          inductionHypothesis]

theorem countBucket_comm (first second : Nat) (counts : List (Nat × Nat)) :
    countBucket first (countBucket second counts) =
      countBucket second (countBucket first counts) := by
  rcases Nat.lt_trichotomy first second with below | rfl | above
  · exact countBucket_comm_of_lt below counts
  · rfl
  · exact (countBucket_comm_of_lt above counts).symm

/-- Count a number, even if it is too great. -/
def hit (histogram : Histogram) (value : Nat) : Histogram :=
  ⟨countBucket (lowest value) histogram.counts⟩

theorem record?_eq_hit
    (histogram : Histogram)
    {value : Nat}
    (inRange : value ≤ greatest) :
    histogram.record? value = some (histogram.hit value) := if_pos inRange

/-- Numbers fill the buckets alike in every order. -/
theorem foldl_hit_of_perm
    {first second : List Nat}
    (perm : first.Perm second)
    (histogram : Histogram) :
    first.foldl hit histogram = second.foldl hit histogram := by
  apply perm.foldl_eq'
  intro value _ other _ histogram
  rw [hit, hit, hit, hit, countBucket_comm]

end Histogram

/-! ## Lists of runs -/

namespace RunStatistics

/-- The statistics that runs add up to: their samples, how many they are, how many of them
gave no sample, and the delivery ratio of the last one. -/
def plus (statistics : RunStatistics) (runs : List Metrics) : RunStatistics where
  histogram := (runs.filterMap sample?).foldl Histogram.hit statistics.histogram
  runs := statistics.runs + runs.length
  failed := statistics.failed + runs.countP fun metrics => (sample? metrics).isNone
  lastRatio := (runs.getLast?.map Metrics.deliveryRatio).getD statistics.lastRatio

/-- One run is added as a list of its own. -/
theorem record_eq (statistics : RunStatistics) (metrics : Metrics) :
    statistics.record metrics = .ok (statistics.plus [metrics]) := by
  unfold record plus
  cases sampled : sample? metrics with
  | none => simp [sampled]
  | some rate =>
      have counted := statistics.histogram.record?_eq_hit (le_greatest_of_sample? sampled)
      simp [sampled, counted]

theorem plus_append (statistics : RunStatistics) (first second : List Metrics) :
    (statistics.plus first).plus second = statistics.plus (first ++ second) := by
  unfold plus
  rw [RunStatistics.mk.injEq]
  refine ⟨?_, ?_, ?_, ?_⟩
  · rw [List.filterMap_append, List.foldl_append]
  · rw [List.length_append, Nat.add_assoc]
  · rw [List.countP_append, Nat.add_assoc]
  · rw [List.getLast?_append]
    cases second.getLast? <;> rfl

/-- Two statistics tell the same about their runs, but for the last delivery ratio. -/
structure SameReadings (first second : RunStatistics) : Prop where
  runs : first.runs = second.runs
  failed : first.failed = second.failed
  count : first.count = second.count
  mean : first.histogram.mean = second.histogram.mean
  min : first.histogram.min = second.histogram.min
  max : first.histogram.max = second.histogram.max
  valueAt : ∀ quantile, first.histogram.valueAt quantile = second.histogram.valueAt quantile

theorem sameReadings_plus_of_perm
    {first second : List Metrics}
    (perm : first.Perm second)
    (statistics : RunStatistics) :
    (statistics.plus first).SameReadings (statistics.plus second) := by
  have histogram : (statistics.plus first).histogram = (statistics.plus second).histogram :=
    Histogram.foldl_hit_of_perm (perm.filterMap _) statistics.histogram
  constructor
  case runs => exact congrArg (statistics.runs + ·) perm.length_eq
  case failed => exact congrArg (statistics.failed + ·) (perm.countP_eq _)
  case count => rw [RunStatistics.count, histogram, RunStatistics.count]
  case mean => rw [histogram]
  case min => rw [histogram]
  case max => rw [histogram]
  case valueAt => exact fun quantile => by rw [histogram]

end RunStatistics

namespace Statistics

/-- Add the runs of both directions one after another. -/
def recordAll (statistics : Statistics) (reports : List Report) : Except Nat Statistics :=
  reports.foldlM record statistics

/-- Reports are taken in each direction as the metrics of that direction. -/
theorem recordAll_eq (statistics : Statistics) (reports : List Report) :
    statistics.recordAll reports =
      .ok (.tabulate fun direction =>
        (statistics.get direction).plus (reports.map (·.get direction))) := by
  induction reports generalizing statistics with
  | nil =>
      refine congrArg Except.ok (PerDirection.ext_get fun direction => ?_)
      rw [PerDirection.get_tabulate]
      rfl
  | cons report later inductionHypothesis =>
      have recorded : statistics.record report =
          .ok (.tabulate fun direction =>
            (statistics.get direction).plus [report.get direction]) := by
        simp only [record, RunStatistics.record_eq, bind, Except.bind]
        rfl
      rw [recordAll, List.foldlM_cons, recorded]
      refine (inductionHypothesis _).trans
        (congrArg Except.ok (PerDirection.ext_get fun direction => ?_))
      rw [PerDirection.get_tabulate, PerDirection.get_tabulate, PerDirection.get_tabulate,
        RunStatistics.plus_append, List.map_cons, List.singleton_append]

/-- Statistics of runs do not depend on the order of the runs: all runs are taken in either
order, and both directions tell the same about them. Only the delivery ratio may differ, and
it is that of the last run. -/
theorem recorded_of_perm {first second : List Report} (perm : first.Perm second) :
    ∃ one other : Statistics,
      empty.recordAll first = .ok one ∧
        empty.recordAll second = .ok other ∧
        ∀ direction,
          (one.get direction).SameReadings (other.get direction) ∧
            (one.get direction).lastRatio =
              first.getLast?.bind (fun report => (report.get direction).deliveryRatio) ∧
            (other.get direction).lastRatio =
              second.getLast?.bind (fun report => (report.get direction).deliveryRatio) := by
  refine ⟨_, _, empty.recordAll_eq first, empty.recordAll_eq second, fun direction => ?_⟩
  rw [PerDirection.get_tabulate, PerDirection.get_tabulate]
  have lastRatio (reports : List Report) :
      ((empty.get direction).plus (reports.map (·.get direction))).lastRatio =
        reports.getLast?.bind fun report => (report.get direction).deliveryRatio := by
    have none : (empty.get direction).lastRatio = none := by cases direction <;> rfl
    rw [RunStatistics.plus, none, List.getLast?_map]
    cases reports.getLast? <;> rfl
  exact ⟨RunStatistics.sameReadings_plus_of_perm (perm.map _) _, lastRatio first,
    lastRatio second⟩

/-- A failed run and a complete one are told alike in either order, but the delivery ratio is
known only where the complete one is the last. -/
theorem recorded_failure_first :
    let complete : Report :=
      ⟨.both { bandwidth := some 80000, throughput := some 78000 }, none⟩
    let failed : Report := ⟨.both { bandwidth := some 80000, error := some "timeout" }, none⟩
    [failed, complete].Perm [complete, failed] ∧
      ∃ one other : Statistics,
        empty.recordAll [failed, complete] = .ok one ∧
          empty.recordAll [complete, failed] = .ok other ∧
          ∀ direction,
            (one.get direction).SameReadings (other.get direction) ∧
              (one.get direction).lastRatio = some 0.975 ∧
              (other.get direction).lastRatio = none := by
  intro complete failed
  have perm : [failed, complete].Perm [complete, failed] := .swap _ _ _
  obtain ⟨one, other, recorded, alsoRecorded, readings⟩ := recorded_of_perm perm
  refine ⟨perm, one, other, recorded, alsoRecorded, fun direction => ?_⟩
  obtain ⟨same, ratio, otherRatio⟩ := readings direction
  refine ⟨same, ratio.trans ?_, otherRatio.trans ?_⟩
  · cases direction <;> decide +kernel
  · cases direction <;> decide +kernel

end Statistics

end NetworkConsole
