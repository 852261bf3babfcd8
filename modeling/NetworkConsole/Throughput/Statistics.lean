import NetworkConsole.Report.Metrics
import NetworkConsole.Throughput.Histogram

/-!
# Throughput statistics

Statistics of the achieved rates of repeated runs, for each direction. A run that
reports an error, or no rate of at least one bit per second, is counted as failed and
adds no sample.
-/

namespace NetworkConsole

/-- The runs of one direction. -/
structure RunStatistics where
  histogram : Histogram
  runs : Nat
  failed : Nat
  lastRatio : Option Float
  deriving DecidableEq

namespace RunStatistics

/-- Statistics before the first run. -/
def empty : RunStatistics := ⟨.empty, 0, 0, none⟩

/-- The rate in bits per second that a run adds to the statistics, unless the run failed. A
rate beyond the histogram's range counts as the greatest one in it. -/
def sample? (metrics : Metrics) : Option Nat :=
  match metrics.throughput, metrics.error with
  | some rate, none =>
      if 1 ≤ rate then some (Nat.min Histogram.greatest (Nat.max 1 (Number.toNat rate))) else none
  | _, _ => none

/-- Add a run. A rate that the histogram does not take is given back as the error. -/
def record (statistics : RunStatistics) (metrics : Metrics) : Except Nat RunStatistics :=
  let seen :=
    { statistics with runs := statistics.runs + 1, lastRatio := metrics.deliveryRatio }
  match sample? metrics with
  | some rate =>
      match seen.histogram.record? rate with
      | some histogram => .ok { seen with histogram }
      | none => .error rate
  | none => .ok { seen with failed := seen.failed + 1 }

/-- How many runs added a sample. -/
def count (statistics : RunStatistics) : Nat := statistics.histogram.total

end RunStatistics

/-- The runs of both directions. -/
abbrev Statistics := PerDirection RunStatistics

namespace Statistics

/-- Statistics before the first run. -/
def empty : Statistics := .both .empty

/-- Add a run to both directions. -/
def record (statistics : Statistics) (report : Report) : Except Nat Statistics := do
  let clientToServer ← statistics.clientToServer.record (report.get .clientToServer)
  let serverToClient ← statistics.serverToClient.record (report.get .serverToClient)
  .ok ⟨clientToServer, serverToClient⟩

end Statistics

end NetworkConsole
