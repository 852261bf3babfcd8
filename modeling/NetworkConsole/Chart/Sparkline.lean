import NetworkConsole.Chart.Series

/-!
# Sparklines

A sparkline has one character for each point of a series: a block of one of eight
heights, a diamond for an error, or a blank for a gap.
-/

namespace NetworkConsole.Chart

/-- Blocks of rising height. -/
def blocks : List Char := ['▁', '▂', '▃', '▄', '▅', '▆', '▇', '█']

/-- The height of a rate against the greatest one, from zero to seven. -/
def height (rate greatest : Float) : Nat :=
  if rate ≤ 0 ∨ greatest ≤ 0 then 0
  else min 7 (Number.toNat (Number.round (rate / greatest * 7)))

/-- The character of a point. -/
def mark (greatest : Float) (point : Point) : Char :=
  match point.error, point.value with
  | some _, _ => '◆'
  | none, none => ' '
  | none, some rate => blocks.getD (height rate greatest) ' '

/-- A series as one character for each point, scaled to the greatest rate. -/
def sparkline (series : Series) (greatest : Float) : String :=
  String.ofList (series.points.map (mark greatest))

end NetworkConsole.Chart
