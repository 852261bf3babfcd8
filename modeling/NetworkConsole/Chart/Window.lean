import NetworkConsole.Number.Notation
import NetworkConsole.Number.Rounding

/-!
# The time window of a chart

A chart shows the last twenty seconds. It ticks seven times a second while the console
has focus and once a second otherwise. A trimmed window leaves one tick off its left
edge.
-/

namespace NetworkConsole.Chart

/-- How often a chart ticks. -/
inductive Cadence
  | focused
  | unfocused
  deriving DecidableEq, Repr

namespace Cadence

/-- The cadence of a console that has focus or has not. -/
def ofFocus (focused : Bool) : Cadence := if focused then .focused else .unfocused

/-- Ticks in one second. -/
def perSecond : Cadence → Nat
  | .focused => 7
  | .unfocused => 1

/-- Seconds of history in the window. -/
def windowSeconds : Nat := 20

/-- Ticks in the window. -/
def ticks (cadence : Cadence) : Nat := windowSeconds * cadence.perSecond

/-- Milliseconds from one tick to the next. -/
def tickMilliseconds (cadence : Cadence) : Float := 1000 / Float.ofNat cadence.perSecond

/-- Nanoseconds from one tick to the next, to the nearest one. -/
def tickNanoseconds (cadence : Cadence) : Nat :=
  let (significand, exponent) := Number.decode (1 / Float.ofNat cadence.perSecond)
  Number.divideToEven (significand * Nat.pow 2 exponent.toNat * 1000000000)
    (Nat.pow 2 (-exponent).toNat)

end Cadence

/-- The window of a chart. -/
structure Window where
  cadence : Cadence
  trimmed : Bool
  deriving DecidableEq, Repr

namespace Window

/-- Milliseconds left off the left edge. -/
def trim (window : Window) : Float := if window.trimmed then window.cadence.tickMilliseconds else 0

/-- Milliseconds that the window's ticks span. -/
def span (window : Window) : Float :=
  Float.ofNat window.cadence.ticks * window.cadence.tickMilliseconds

/-- The oldest time that is inside the window at a given time. -/
def floor (window : Window) (now : Int) : Float := Float.ofInt now - window.span + window.trim

end Window

end NetworkConsole.Chart
