import NetworkConsole.Chart.Board
import NetworkConsole.Chart.Sparkline
import NetworkConsole.Display.Run

/-!
# Display of charts

Each direction is shown as two sparklines on a common scale, with the times of the first
and the last point below them.
-/

namespace NetworkConsole.Display

open Text (paint)

/-- The greatest rate of a direction's charts, at least zero. -/
def greatestRate (pair : Chart.Pair) : Float :=
  ((pair.attempted.values ++ pair.achieved.values).filterMap (·.value)).foldl Number.larger 0

/-- The line with the times of the first and the last point. -/
def spanText (terminal : Terminal) (series : Chart.Series) : String :=
  match series.points.head?, series.points.getLast? with
  | some first, some last =>
      "      " ++ paint terminal.colours .dimmed (timeOfDay first.time) ++ " .. " ++
        paint terminal.colours .dimmed (timeOfDay last.time) ++ "\n"
  | _, _ => ""

/-- The charts of one direction. -/
def chartText (terminal : Terminal) (direction : Direction) (pair : Chart.Pair) : String :=
  let greatest := greatestRate pair
  paint terminal.colours .bold (label direction) ++ " " ++
    paint terminal.colours .dimmed ("(max " ++ threePlaces greatest ++ " Mbps)") ++ "\n" ++
    "  " ++ paint terminal.colours .cyan "req" ++ " " ++
    Chart.sparkline pair.attempted greatest ++ "\n" ++
    "  " ++ paint terminal.colours .green "ach" ++ " " ++
    Chart.sparkline pair.achieved greatest ++ "\n" ++
    spanText terminal pair.attempted

/-- The charts of both directions. -/
def charts (terminal : Terminal) (board : Chart.Board) : String :=
  String.join (Direction.all.map fun direction =>
    chartText terminal direction (board.chart direction))

end NetworkConsole.Display
