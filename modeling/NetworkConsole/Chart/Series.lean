import NetworkConsole.Chart.Window

/-!
# Chart series

The points of a series are in order of time, and points of one time in the order in
which they were added. Points leave a series on the left when its window moves on.
-/

namespace NetworkConsole.Chart

/-- A point of a series, at a time in milliseconds. A point without a value is a gap. -/
structure Point where
  time : Int
  value : Option Float := none
  error : Option String := none
  deriving DecidableEq

/-- A point that leaves a gap. -/
def Point.gap (time : Int) : Point := { time }

/-- A named series of points. -/
structure Series where
  name : String
  points : List Point
  deriving DecidableEq

namespace Series

/-- A series without points. -/
def empty (name : String) : Series := ⟨name, []⟩

/-- Times of the gaps that fill a window up to a given time, one at each of its edges. -/
def seedTimes (now : Int) (cadence : Cadence) : List Int :=
  (List.range (cadence.ticks + 1)).map fun (index : Nat) =>
    let offset : Int := (index : Int) - cadence.ticks
    now + Number.toInt (Number.round (Float.ofInt offset * cadence.tickMilliseconds))

/-- A series whose window is filled with gaps. -/
def seeded (name : String) (now : Int) (cadence : Cadence) : Series :=
  ⟨name, (seedTimes now cadence).map Point.gap⟩

/-- Points that carry a value. -/
def values (series : Series) : List Point := series.points.filter (·.value.isSome)

/-- Whether a point is older than the window's oldest time. -/
def isBefore (floor : Float) (point : Point) : Bool := Float.ofInt point.time < floor

/-- Drop points from the left up to the first one inside the window. -/
def evict (series : Series) (floor : Float) : Series :=
  { series with points := series.points.dropWhile (isBefore floor) }

/-- The number of points that `evict` drops. -/
def evicted (series : Series) (floor : Float) : Nat :=
  (series.points.takeWhile (isBefore floor)).length

/-- Insert a point after all points that are not later. -/
def insertByTime (point : Point) : List Point → List Point
  | [] => [point]
  | first :: rest =>
      if first.time ≤ point.time then first :: insertByTime point rest
      else point :: first :: rest

/-- Add a point and keep the order of time. -/
def push (series : Series) (point : Point) : Series :=
  { series with points := insertByTime point series.points }

end Series

end NetworkConsole.Chart
