import NetworkConsole.Display.Run
import NetworkConsole.Throughput.Statistics

/-!
# Display of statistics

The statistics of each direction over all runs, with rates in megabits per second.
-/

namespace NetworkConsole.Display

open Text (paint)

/-- How many runs there were and how many of them failed. -/
def runCounts (statistics : RunStatistics) : String :=
  "(" ++ toString statistics.runs ++ " runs, " ++ toString statistics.failed ++ " failed)"

/-- A whole rate in megabits per second. -/
def wholeMegabits (rate : Nat) : String := threePlaces (Float.ofNat rate / 1000000)

/-- The statistics of one direction. -/
def statisticsText
    (terminal : Terminal)
    (direction : Direction)
    (statistics : RunStatistics) : String :=
  if statistics.count = 0 then
    "  " ++ label direction ++ ": " ++ paint terminal.colours .red "no successful runs" ++ " " ++
      runCounts statistics ++ "\n"
  else
    let histogram := statistics.histogram
    "  " ++ label direction ++ ": mean " ++ threePlaces (histogram.mean / 1000000) ++
      " Mbps, min " ++ wholeMegabits histogram.min ++ ", max " ++ wholeMegabits histogram.max ++
      ", p50 " ++ wholeMegabits (histogram.valueAt 0.5) ++
      ", p90 " ++ wholeMegabits (histogram.valueAt 0.9) ++ " " ++ runCounts statistics ++ "\n" ++
      (statistics.lastRatio.map fun ratio =>
        "        last run delivered " ++ ratioText terminal ratio ++ "\n").getD ""

/-- The statistics of both directions. -/
def summary (terminal : Terminal) (statistics : Statistics) : String :=
  "\n" ++ paint terminal.colours .bold "Throughput statistics:" ++ "\n" ++
    String.join (Direction.all.map fun direction =>
      statisticsText terminal direction (statistics.get direction))

end NetworkConsole.Display
