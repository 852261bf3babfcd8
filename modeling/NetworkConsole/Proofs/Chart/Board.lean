import Mathlib.Data.List.Sort
import NetworkConsole.Chart.Board
import NetworkConsole.Proofs.Chart.Series

/-!
# History of a chart board

A series is known from what was ever added to it: of all its points in order of time, it
holds those that were inside the window at every tick since they were added. The window of
a tick is the one of the focus at that time.
-/

namespace NetworkConsole
namespace Chart

/-- Whether a point is inside every window with one of the floors. -/
def Point.isWithin (floors : List Float) (point : Point) : Bool :=
  floors.all fun floor => !Series.isBefore floor point

theorem filter_isWithin_append (points : List Point) (earlier later : List Float) :
    points.filter (·.isWithin (earlier ++ later)) =
      (points.filter (·.isWithin earlier)).filter (·.isWithin later) := by
  rw [List.filter_filter]
  apply List.filter_congr
  intro point _
  rw [Point.isWithin, List.all_append, Bool.and_comm]
  rfl

/-- A point that is added to a series, and the floors of the window at all later ticks. -/
structure Arrival where
  point : Point
  floors : List Float

/-- Whether the point was inside the window at all later ticks. -/
def Arrival.survives (arrival : Arrival) : Bool := arrival.point.isWithin arrival.floors

/-- The points that a series holds after all of its arrivals: those that survive, in order
of time. -/
def remaining (arrivals : List Arrival) : List Point :=
  ((arrivals.mergeSort fun first second => first.point.time ≤ second.point.time).filter
    (·.survives)).map (·.point)

/-- The points that survive, in the order in which they were added. -/
def surviving (arrivals : List Arrival) : List Point :=
  (arrivals.filter (·.survives)).map (·.point)

theorem stablySorted_remaining (arrivals : List Arrival) :
    StablySorted Point.time (remaining arrivals) (surviving arrivals) :=
  ((StablySorted.mergeSort (fun arrival : Arrival => arrival.point.time) arrivals).filter _).map

theorem surviving_append (earlier later : List Arrival) :
    surviving (earlier ++ later) = surviving earlier ++ surviving later := by
  simp [surviving]

theorem surviving_map (points : List Point) (floors : List Float) :
    surviving (points.map (⟨·, floors⟩)) = points.filter (·.isWithin floors) := by
  rw [surviving, List.filter_map, List.map_map]
  exact List.map_id _

/-- Two histories with the same survivors at each time lead to the same series. -/
theorem remaining_congr
    {first second : List Arrival}
    (same : ∀ time, (surviving first).filter (·.time = time) =
      (surviving second).filter (·.time = time)) :
    remaining first = remaining second := by
  apply StablySorted.eq_of_filter_eq (stablySorted_remaining first).ordered
    (stablySorted_remaining second).ordered
  intro time
  rw [(stablySorted_remaining first).stable, (stablySorted_remaining second).stable, same]

/-- The two rates of a direction that have a series. -/
inductive Curve
  | attempted
  | achieved
  deriving DecidableEq, Repr

/-- The series of a rate. -/
def Pair.series (pair : Pair) : Curve → Series
  | .attempted => pair.attempted
  | .achieved => pair.achieved

namespace Board

/-- What can be asked of a board. -/
inductive Operation
  | tick (now : Int)
  | record (report : Report) (now : Int)
  | setFocus (focused : Bool)

namespace Operation

/-- The window after an operation. -/
def window (window : Window) : Operation → Window
  | .setFocus focused => { window with cadence := .ofFocus focused }
  | _ => window

/-- The floor of the window at an operation, if it is a tick. -/
def floors (window : Window) : Operation → List Float
  | .tick now => [window.floor now]
  | _ => []

/-- The points that an operation adds to a series. -/
def added (direction : Direction) (curve : Curve) : Operation → List Point
  | .tick now => [.gap now]
  | .record report now =>
      let metrics := report.get direction
      match curve with
      | .attempted =>
          [{ time := now, value := megabits metrics.bandwidth, error := metrics.error }]
      | .achieved => [{ time := now, value := megabits metrics.throughput }]
  | .setFocus _ => []

end Operation

/-- Carry out an operation. -/
def apply (board : Board) : Operation → Board
  | .tick now => board.tick now
  | .record report now => board.record report now
  | .setFocus focused => board.setFocus focused

/-- Carry out operations one after another. -/
def run (board : Board) (operations : List Operation) : Board := operations.foldl apply board

/-- The series of a rate of a direction. -/
def series (board : Board) (direction : Direction) (curve : Curve) : Series :=
  (board.chart direction).series curve

/-- The floors of the window at the ticks of a run. -/
def floors (window : Window) : List Operation → List Float
  | [] => []
  | operation :: later => operation.floors window ++ floors (operation.window window) later

/-- What a run adds to a series. -/
def arrivals
    (direction : Direction)
    (curve : Curve)
    (window : Window) : List Operation → List Arrival
  | [] => []
  | operation :: later =>
      (operation.added direction curve).map (⟨·, floors (operation.window window) later⟩) ++
        arrivals direction curve (operation.window window) later

/-- All that is ever added to a series: the seeds of the first window, then what a run adds. -/
def history
    (now : Int)
    (window : Window)
    (operations : List Operation)
    (direction : Direction)
    (curve : Curve) : List Arrival :=
  ((Series.seedTimes now window.cadence).map Point.gap).map (⟨·, floors window operations⟩) ++
    arrivals direction curve window operations

/-! ## Operations -/

theorem window_apply (board : Board) (operation : Operation) :
    (board.apply operation).window = operation.window board.window := by
  cases operation <;> rfl

theorem series_tick (board : Board) (now : Int) (direction : Direction) (curve : Curve) :
    (board.tick now).series direction curve =
      ((board.series direction curve).evict (board.window.floor now)).push (.gap now) := by
  rw [series, chart, tick, PerDirection.get_map]
  cases curve <;> rfl

theorem series_record
    (board : Board)
    (report : Report)
    (now : Int)
    (direction : Direction)
    (curve : Curve) :
    ∃ point, point.time = now ∧
      (Operation.record report now).added direction curve = [point] ∧
      (board.record report now).series direction curve =
        (board.series direction curve).push point := by
  rw [series, chart, record, PerDirection.get_tabulate]
  cases curve <;> exact ⟨_, rfl, rfl, rfl⟩

/-- An operation drops the points that are outside the window and adds its own. -/
theorem stablySorted_apply
    {board : Board}
    {direction : Direction}
    {curve : Curve}
    {points : List Point}
    (stablySorted : StablySorted Point.time (board.series direction curve).points points)
    (operation : Operation) :
    StablySorted Point.time ((board.apply operation).series direction curve).points
      (points.filter (·.isWithin (operation.floors board.window)) ++
        operation.added direction curve) := by
  have whole : points.filter (·.isWithin []) = points := List.filter_eq_self.mpr fun _ _ => rfl
  cases operation with
  | tick now =>
      have within : Point.isWithin [board.window.floor now] =
          fun point => !Series.isBefore (board.window.floor now) point :=
        funext fun point => Bool.and_true _
      rw [apply, series_tick, Operation.floors, within]
      exact Series.stablySorted_push (Series.stablySorted_evict stablySorted _) _
  | record report now =>
      obtain ⟨point, -, added, pushed⟩ := series_record board report now direction curve
      have noFloor : (Operation.record report now).floors board.window = [] := rfl
      rw [apply, pushed, added, noFloor, whole]
      exact Series.stablySorted_push stablySorted point
  | setFocus focused =>
      have noFloor : (Operation.setFocus focused).floors board.window = [] := rfl
      rw [noFloor, whole, Operation.added, List.append_nil]
      exact stablySorted

/-! ## Runs -/

/-- A run adds to the points that were there, of which those stay that survive its ticks. -/
theorem points_run
    {board : Board}
    {direction : Direction}
    {curve : Curve}
    (ordered : (board.series direction curve).points.Pairwise fun first second =>
      first.time ≤ second.time)
    (operations : List Operation) :
    ((board.run operations).series direction curve).points =
      remaining ((board.series direction curve).points.map (⟨·, floors board.window operations⟩) ++
        arrivals direction curve board.window operations) := by
  induction operations generalizing board with
  | nil =>
      have all := stablySorted_remaining
        ((board.series direction curve).points.map (⟨·, floors board.window []⟩))
      have within : (·.isWithin (floors board.window [])) = fun _ : Point => true := rfl
      rw [surviving_map, within, List.filter_true] at all
      rw [arrivals, List.append_nil]
      exact (StablySorted.of_ordered ordered).unique all
  | cons operation later inductionHypothesis =>
      have step := stablySorted_apply (.of_ordered ordered) operation
      rw [run, List.foldl_cons, ← run, inductionHypothesis step.ordered, window_apply]
      -- Points that are outside the window of this operation are no survivors of the run either.
      apply remaining_congr
      intro time
      have kept := (step.filter (·.isWithin (floors (operation.window board.window) later))).stable
        time
      rw [arrivals, floors, surviving_append, surviving_append, surviving_append, surviving_map,
        surviving_map, surviving_map, filter_isWithin_append, ← List.append_assoc,
        ← List.filter_append, List.filter_append, kept, ← List.filter_append]

/-! ## Alignment -/

theorem times_insertByTime (point : Point) (points : List Point) :
    (Series.insertByTime point points).map (·.time) =
      (points.map (·.time)).orderedInsert (· < ·) point.time := by
  induction points with
  | nil => rfl
  | cons first rest inductionHypothesis =>
      unfold Series.insertByTime
      rw [List.map_cons, List.orderedInsert_cons]
      split_ifs with notLater later later
      · omega
      · rw [List.map_cons, inductionHypothesis]
      · rfl
      · omega

theorem times_evict (series : Series) (floor : Float) :
    (series.evict floor).points.map (·.time) =
      (series.points.map (·.time)).dropWhile fun time => Float.ofInt time < floor := by
  rw [List.dropWhile_map]
  rfl

/-- All series have the same times. -/
def Aligned (board : Board) : Prop :=
  ∃ times, ∀ direction curve, (board.series direction curve).points.map (·.time) = times

theorem Aligned.apply
    {board : Board}
    (aligned : board.Aligned)
    (operation : Operation) :
    (board.apply operation).Aligned := by
  obtain ⟨times, same⟩ := aligned
  cases operation with
  | tick now =>
      refine ⟨(times.dropWhile fun time => Float.ofInt time < board.window.floor now).orderedInsert
        (· < ·) now, fun direction curve => ?_⟩
      rw [Board.apply, series_tick, Series.push, times_insertByTime, times_evict, same]
      rfl
  | record report now =>
      refine ⟨times.orderedInsert (· < ·) now, fun direction curve => ?_⟩
      obtain ⟨point, rfl, -, pushed⟩ := series_record board report now direction curve
      rw [Board.apply, pushed, Series.push, times_insertByTime, same]
  | setFocus focused => exact ⟨times, same⟩

theorem Aligned.run
    {board : Board}
    (aligned : board.Aligned)
    (operations : List Operation) :
    (board.run operations).Aligned := by
  induction operations generalizing board with
  | nil => exact aligned
  | cons operation later inductionHypothesis => exact inductionHypothesis (aligned.apply operation)

/-- After any operations, a series holds the points that were ever added to it, in order of
time and those of one time in the order of their arrival, less the ones that were older
than the window at some tick after their arrival. All series have the same times. -/
theorem points_of_run (now : Int) (window : Window) (operations : List Operation) :
    let board := (withWindow now window).run operations
    (∀ direction curve,
      (board.series direction curve).points =
        (((history now window operations direction curve).mergeSort
          fun first second => first.point.time ≤ second.point.time).filter
            (·.survives)).map (·.point)) ∧
      ∀ direction curve otherDirection otherCurve,
        (board.series direction curve).points.map (·.time) =
          (board.series otherDirection otherCurve).points.map (·.time) := by
  have seeds : ∀ direction curve, ((withWindow now window).series direction curve).points =
      (Series.seedTimes now window.cadence).map Point.gap := by
    intro direction curve
    rw [series, chart, withWindow, PerDirection.get_both]
    cases curve <;> rfl
  intro board
  constructor
  · intro direction curve
    have ordered : ((withWindow now window).series direction curve).points.Pairwise
        fun first second => first.time ≤ second.time := by
      rw [seeds, List.pairwise_map]
      exact Series.ordered_seedTimes now window.cadence
    have points := points_run ordered operations
    rw [seeds] at points
    exact points
  · have aligned : (withWindow now window).Aligned := by
      refine ⟨((Series.seedTimes now window.cadence).map Point.gap).map (·.time), ?_⟩
      intro direction curve
      rw [seeds]
    obtain ⟨times, same⟩ := aligned.run operations
    intro direction curve otherDirection otherCurve
    exact (same direction curve).trans (same otherDirection otherCurve).symm

end Board
end Chart
end NetworkConsole
