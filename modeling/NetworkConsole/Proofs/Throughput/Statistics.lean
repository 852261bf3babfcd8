import Mathlib.Tactic.SplitIfs
import NetworkConsole.Throughput.Statistics

/-!
# Counting runs

Every run is taken into the statistics of both directions, whether it adds a sample or
not: a rate beyond the histogram's range is counted as the greatest one in it. The runs are
those that failed and those that added a sample, each counted once.
-/

namespace NetworkConsole

namespace Histogram

theorem exists_record?_eq_some
    (histogram : Histogram)
    {value : Nat}
    (inRange : value ≤ greatest) :
    ∃ later, histogram.record? value = some later := by
  rw [record?, if_pos inRange]
  exact ⟨_, rfl⟩

/-- One more hit of a bucket is one more of all hits, whether the bucket is new or not. -/
theorem foldr_countBucket (bucket : Nat) (counts : List (Nat × Nat)) :
    ((countBucket bucket counts).map Prod.snd).foldr (· + ·) 0 =
      (counts.map Prod.snd).foldr (· + ·) 0 + 1 := by
  induction counts with
  | nil => rfl
  | cons entry rest inductionHypothesis =>
      obtain ⟨first, count⟩ := entry
      unfold countBucket
      split_ifs
      · simp only [List.map_cons, List.foldr_cons]
        omega
      · simp only [List.map_cons, List.foldr_cons]
        omega
      · simp only [List.map_cons, List.foldr_cons, inductionHypothesis]
        omega

theorem total_of_record?
    {histogram later : Histogram}
    {value : Nat}
    (recorded : histogram.record? value = some later) :
    later.total = histogram.total + 1 := by
  unfold record? at recorded
  split_ifs at recorded
  cases recorded
  exact foldr_countBucket (lowest value) histogram.counts

end Histogram

namespace RunStatistics

theorem le_greatest_of_sample?
    {metrics : Metrics}
    {rate : Nat}
    (sampled : sample? metrics = some rate) :
    rate ≤ Histogram.greatest := by
  unfold sample? at sampled
  split at sampled
  · split at sampled
    · cases sampled
      exact Nat.min_le_left _ _
    · cases sampled
  · cases sampled

/-- A run adds no sample below the histogram's least number. -/
theorem one_le_of_sample?
    {metrics : Metrics}
    {rate : Nat}
    (sampled : sample? metrics = some rate) :
    1 ≤ rate := by
  unfold sample? at sampled
  split at sampled
  · split at sampled
    · cases sampled
      exact Nat.le_min.mpr ⟨by decide, Nat.le_max_left _ _⟩
    · cases sampled
  · cases sampled

/-- The statistics of a direction take every run. -/
theorem exists_record_eq (statistics : RunStatistics) (metrics : Metrics) :
    ∃ later, statistics.record metrics = .ok later ∧ later.runs = statistics.runs + 1 := by
  unfold record
  dsimp only
  cases sampled : sample? metrics with
  | none => exact ⟨_, rfl, rfl⟩
  | some rate =>
      obtain ⟨histogram, recorded⟩ :=
        statistics.histogram.exists_record?_eq_some (le_greatest_of_sample? sampled)
      dsimp only
      rw [recorded]
      exact ⟨_, rfl, rfl⟩

/-- Every run has failed or added a sample. -/
def Balanced (statistics : RunStatistics) : Prop :=
  statistics.runs = statistics.failed + statistics.count

theorem Balanced.record
    {statistics later : RunStatistics}
    {metrics : Metrics}
    (balanced : statistics.Balanced)
    (recorded : statistics.record metrics = .ok later) :
    later.Balanced := by
  have one : statistics.runs + 1 = statistics.failed + statistics.count + 1 :=
    congrArg (· + 1) balanced
  unfold RunStatistics.record at recorded
  dsimp only at recorded
  split at recorded
  · split at recorded
    · rename_i counted
      cases recorded
      exact one.trans (congrArg (statistics.failed + ·) (Histogram.total_of_record? counted).symm)
    · cases recorded
  · cases recorded
    exact one.trans (Nat.add_right_comm _ _ _)

end RunStatistics

/-- The statistics of both directions take every run. -/
theorem Statistics.exists_record_eq (statistics : Statistics) (report : Report) :
    ∃ later, statistics.record report = .ok later ∧
      ∀ direction, (later.get direction).runs = (statistics.get direction).runs + 1 := by
  obtain ⟨clientToServer, first, firstRuns⟩ :=
    statistics.clientToServer.exists_record_eq (report.get .clientToServer)
  obtain ⟨serverToClient, second, secondRuns⟩ :=
    statistics.serverToClient.exists_record_eq (report.get .serverToClient)
  refine ⟨⟨clientToServer, serverToClient⟩, ?_, ?_⟩
  · simp only [record, first, second, bind, Except.bind]
  · intro direction
    cases direction with
    | clientToServer => exact firstRuns
    | serverToClient => exact secondRuns

/-- A report is counted in a direction by the metrics of that direction. -/
theorem Statistics.record_get
    {statistics later : Statistics}
    {report : Report}
    (recorded : statistics.record report = .ok later)
    (direction : Direction) :
    (statistics.get direction).record (report.get direction) = .ok (later.get direction) := by
  unfold record at recorded
  cases first : statistics.clientToServer.record (report.get .clientToServer) with
  | error rate => simp [first, bind, Except.bind] at recorded
  | ok clientToServer =>
      cases second : statistics.serverToClient.record (report.get .serverToClient) with
      | error rate => simp [first, second, bind, Except.bind] at recorded
      | ok serverToClient =>
          simp only [first, second, bind, Except.bind, Except.ok.injEq] at recorded
          subst recorded
          cases direction with
          | clientToServer => exact first
          | serverToClient => exact second

/-- A run is counted in both directions alike. -/
theorem Statistics.balanced_record
    {statistics later : Statistics}
    {report : Report}
    (balanced : ∀ direction, (statistics.get direction).Balanced)
    (recorded : statistics.record report = .ok later)
    (direction : Direction) :
    (later.get direction).Balanced :=
  (balanced direction).record (record_get recorded direction)

end NetworkConsole
