import NetworkConsole.Chart.Series
import NetworkConsole.Dial.Panel
import NetworkConsole.Report.Metrics

/-!
# The chart board

Each direction has a series of attempted and one of achieved rates, in megabits per
second. A tick evicts from every series what left the window and then adds a gap to
every series, so that all series stay aligned. Results are added at their time of
arrival.
-/

namespace NetworkConsole.Chart

/-- The two series of a direction. -/
structure Pair where
  attempted : Series
  achieved : Series
  deriving DecidableEq

namespace Pair

/-- Both series with their windows filled with gaps. -/
def seeded (now : Int) (cadence : Cadence) : Pair :=
  ⟨.seeded "attempted" now cadence, .seeded "achieved" now cadence⟩

/-- Apply a change to both series. -/
def map (change : Series → Series) (pair : Pair) : Pair :=
  ⟨change pair.attempted, change pair.achieved⟩

end Pair

/-- The charts of both directions and their common window. -/
structure Board where
  charts : PerDirection Pair
  window : Window
  deriving DecidableEq

namespace Board

/-- Charts with a given window that ends now. -/
def withWindow (now : Int) (window : Window) : Board :=
  ⟨.both (.seeded now window.cadence), window⟩

/-- Charts with the trimmed window of a cadence. -/
def start (now : Int) (cadence : Cadence) : Board := withWindow now ⟨cadence, true⟩

/-- The charts of a direction. -/
def chart (board : Board) (direction : Direction) : Pair := board.charts.get direction

/-- Evict what left the window, then add a gap to every series. -/
def tick (board : Board) (now : Int) : Board :=
  { board with
    charts := board.charts.map <| Pair.map fun series =>
      (series.evict (board.window.floor now)).push (.gap now) }

/-- A rate in megabits per second. -/
def megabits (rate : Option Float) : Option Float := rate.map (· / Panel.bitsPerMegabit)

/-- Add the rates of one direction; the error is marked on the attempted rate. -/
def recordMetrics (pair : Pair) (metrics : Metrics) (now : Int) : Pair where
  attempted :=
    pair.attempted.push { time := now, value := megabits metrics.bandwidth, error := metrics.error }
  achieved := pair.achieved.push { time := now, value := megabits metrics.throughput }

/-- Add a report at its time of arrival. -/
def record (board : Board) (report : Report) (now : Int) : Board :=
  { board with
    charts := .tabulate fun direction =>
      recordMetrics (board.chart direction) (report.get direction) now }

/-- Change the cadence and keep both the points and whether the window is trimmed. -/
def setFocus (board : Board) (focused : Bool) : Board :=
  { board with window := { board.window with cadence := .ofFocus focused } }

end Board

end NetworkConsole.Chart
