import NetworkConsole.Number.Rounding

/-!
# Timing of continuous tests

Continuous tests start at equal intervals. A run's period is the longest of the two test
durations and the chosen interval; what is left of it after the run is the delay before
the next one.
-/

namespace NetworkConsole

/-- Test durations and the chosen interval between runs, in seconds. -/
structure Timing where
  clientToServer : Float
  serverToClient : Float
  interval : Float
  deriving DecidableEq

namespace Timing

/-- The timing before any test duration is known. -/
def zero : Timing := ⟨0, 0, 0⟩

/-- Interval that follows from the test durations: the longer one and a second. -/
def defaultInterval (clientToServer serverToClient : Float) : Float :=
  Number.larger clientToServer serverToClient + 1000 / 1000

/-- The least interval that can be chosen: the shorter test duration. -/
def leastInterval (clientToServer serverToClient : Float) : Float :=
  Number.smaller clientToServer serverToClient

/-- A duration in nanoseconds, in seconds. -/
def seconds (nanoseconds : Nat) : Float :=
  Float.ofNat (nanoseconds / 1000000000) + Float.ofNat (nanoseconds % 1000000000) / 1000000000

/-- The period of a run in milliseconds. -/
def period (timing : Timing) : Float :=
  Number.larger (Number.larger timing.clientToServer timing.serverToClient) timing.interval * 1000

/-- Milliseconds until the next run, where the last one began `elapsed` nanoseconds ago. -/
def delay (timing : Timing) (elapsed : Nat) : Nat :=
  let remaining := timing.period - seconds elapsed * 1000
  if 0 < remaining then Number.toNat (Number.round remaining) else 0

end Timing

end NetworkConsole
