import NetworkConsole.Dial.Linkage
import NetworkConsole.Display.Clock
import NetworkConsole.Report.Metrics
import NetworkConsole.Text.Column
import NetworkConsole.Text.Style

/-!
# Display of a bandwidth run

A run is shown as a heading with its time and its parameters, and a line for each
direction with the rates in megabits per second, the delivery ratio and the arrival
times.
-/

namespace NetworkConsole.Display

open Text (alignRight paint)

/-- How text is shown: with or without colours. -/
structure Terminal where
  colours : Bool
  deriving DecidableEq, Repr

/-- The label column of a direction. -/
def label (direction : Direction) : String := alignRight 4 direction.tag

/-- A number with three decimal places. -/
def threePlaces (x : Float) : String := Number.fixed 3 x

/-- A rate in megabits per second; a rate that is not known counts as zero. -/
def megabits (rate : Option Float) : Float := rate.getD 0 / 1000000

/-- A delivery ratio in percent: green from 95, yellow from 75 and red below. -/
def ratioText (terminal : Terminal) (ratio : Float) : String :=
  let text := alignRight 5 (Number.fixed 1 (ratio * 100)) ++ "%"
  let style := if 0.95 ≤ ratio then .green else if 0.75 ≤ ratio then .yellow else .red
  paint terminal.colours style text

/-- The arrival times, if the least, the mean and the greatest are known. -/
def arrivalText (metrics : Metrics) : String :=
  match metrics.arrivalMin, metrics.arrivalAverage, metrics.arrivalMax with
  | some least, some average, some greatest =>
      "\n      interarrival min/avg/max " ++ threePlaces least ++ "/" ++ threePlaces average ++
        "/" ++ threePlaces greatest ++ " ms" ++
        (metrics.arrivalVariance.map fun variance =>
          ", variance " ++ threePlaces variance ++ " ms").getD ""
  | _, _, _ => ""

/-- The text of one direction. -/
def directionText (terminal : Terminal) (direction : Direction) (metrics : Metrics) : String :=
  let title := paint terminal.colours .bold (label direction)
  match metrics.error with
  | some error =>
      title ++ ": " ++ paint terminal.colours .red ("✗ " ++ error) ++ " (attempted " ++
        threePlaces (megabits metrics.bandwidth) ++ " Mbps)"
  | none =>
      title ++ ": " ++ alignRight 9 (threePlaces (megabits metrics.bandwidth)) ++
        " Mbps attempted, " ++ alignRight 9 (threePlaces (megabits metrics.throughput)) ++
        " Mbps achieved" ++
        (metrics.deliveryRatio.map fun ratio => "  " ++ ratioText terminal ratio).getD "" ++
        arrivalText metrics

/-- The text of a run. -/
def run (terminal : Terminal) (linkage : Linkage) (report : Report) (time : Int) : String :=
  let parameters (direction : Direction) := (linkage.panel direction).summary direction
  paint terminal.colours .dimmed ("[" ++ timeOfDay time ++ "]") ++ " " ++
    parameters .clientToServer ++ " / " ++ parameters .serverToClient ++ "\n" ++
    String.join (Direction.all.map fun direction =>
      "  " ++ directionText terminal direction (report.get direction) ++ "\n")

end NetworkConsole.Display
