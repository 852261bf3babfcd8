import NetworkConsole.Direction

/-!
# Metrics of a bandwidth run

What a test client reports about one direction, and what it reports about both. A
direction is complete when both its rates are known and neither is zero.
-/

namespace NetworkConsole

/-- A metric that a result line can carry. -/
inductive Metric
  | bandwidth
  | throughput
  | arrivalVariance
  | arrivalMin
  | arrivalAverage
  | arrivalMax
  deriving DecidableEq, Repr

/-- The metrics of one direction. Rates are in bits per second and arrival times in
milliseconds. The error tells why the run failed in this direction. -/
structure Metrics where
  bandwidth : Option Float := none
  throughput : Option Float := none
  arrivalVariance : Option Float := none
  arrivalMin : Option Float := none
  arrivalAverage : Option Float := none
  arrivalMax : Option Float := none
  error : Option String := none
  deriving DecidableEq

namespace Metrics

/-- Metrics of which none is known. -/
def empty : Metrics := {}

/-- The value of a metric. -/
def get (metrics : Metrics) : Metric → Option Float
  | .bandwidth => metrics.bandwidth
  | .throughput => metrics.throughput
  | .arrivalVariance => metrics.arrivalVariance
  | .arrivalMin => metrics.arrivalMin
  | .arrivalAverage => metrics.arrivalAverage
  | .arrivalMax => metrics.arrivalMax

/-- Record a value for a metric, in place of any earlier one. -/
def set (metrics : Metrics) (metric : Metric) (value : Float) : Metrics :=
  match metric with
  | .bandwidth => { metrics with bandwidth := some value }
  | .throughput => { metrics with throughput := some value }
  | .arrivalVariance => { metrics with arrivalVariance := some value }
  | .arrivalMin => { metrics with arrivalMin := some value }
  | .arrivalAverage => { metrics with arrivalAverage := some value }
  | .arrivalMax => { metrics with arrivalMax := some value }

@[simp] theorem get_set_same (metrics : Metrics) (metric : Metric) (value : Float) :
    (metrics.set metric value).get metric = some value := by
  cases metric <;> rfl

theorem get_set_of_ne
    (metrics : Metrics)
    {metric other : Metric}
    (different : other ≠ metric)
    (value : Float) :
    (metrics.set metric value).get other = metrics.get other := by
  cases metric <;> cases other <;> first | rfl | exact absurd rfl different

@[simp] theorem error_set (metrics : Metrics) (metric : Metric) (value : Float) :
    (metrics.set metric value).error = metrics.error := by
  cases metric <;> rfl

/-- Whether nothing at all is known. -/
def isEmpty (metrics : Metrics) : Bool :=
  metrics.bandwidth.isNone && metrics.throughput.isNone && metrics.arrivalVariance.isNone &&
    metrics.arrivalMin.isNone && metrics.arrivalAverage.isNone && metrics.arrivalMax.isNone &&
    metrics.error.isNone

/-- Whether a rate is known and not zero. A rate of zero means that nothing was sent or
received. -/
def isPresent (rate : Option Float) : Bool := rate.any fun value => value != 0

/-- Whether the run produced both the attempted and the achieved rate. -/
def isComplete (metrics : Metrics) : Bool :=
  isPresent metrics.bandwidth && isPresent metrics.throughput

/-- The achieved rate over the attempted rate, when the latter is positive. -/
def deliveryRatio (metrics : Metrics) : Option Float :=
  match metrics.throughput, metrics.bandwidth with
  | some achieved, some attempted => if 0 < attempted then some (achieved / attempted) else none
  | _, _ => none

end Metrics

/-- What one run of a bandwidth test reported. The error is not tied to a direction. -/
structure Report where
  metrics : PerDirection Metrics
  error : Option String
  deriving DecidableEq

namespace Report

/-- The metrics of a direction. -/
def get (report : Report) (direction : Direction) : Metrics := report.metrics.get direction

/-- Mark an incomplete direction as failed with a given error, and set its attempted rate
to the rate it was aimed at, so that a failed run can still be plotted. -/
def markIncomplete (error : Option String) (target : Float) (metrics : Metrics) : Metrics :=
  if metrics.isComplete then metrics else { metrics with error, bandwidth := some target }

/-- Mark the incomplete directions as failed with the report's error. -/
def backfill (report : Report) (target : Direction → Float) : Report :=
  { report with
    metrics := .tabulate fun direction =>
      markIncomplete report.error (target direction) (report.get direction) }

end Report

end NetworkConsole
