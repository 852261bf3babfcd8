import NetworkConsole.Command.Tabs
import NetworkConsole.Command.Timing

/-!
# Dispatch of commands

A command holds the controls and the tabs until its response arrives. Commands are
numbered, and a response whose command is no longer the running one is stale: it must
not touch the display. Continuous testing keeps the controls and tabs held between runs.
-/

namespace NetworkConsole

/-- A dispatched command. Its start is a time in milliseconds on a clock that only moves
forward. -/
structure Ticket where
  number : Nat
  app : App
  startedAt : Int
  deriving DecidableEq, Repr

/-- What to do after a response. -/
inductive Finish
  /-- The command was superseded; the response is ignored. -/
  | stale
  /-- Continuous testing goes on after a delay in milliseconds. -/
  | scheduleNext (delay : Nat)
  /-- The controls and the tabs are free again. -/
  | released
  deriving DecidableEq, Repr

/-- Result of a request to change tabs. -/
inductive TabSwitch
  /-- The tabs are held. -/
  | locked
  /-- The tab is shown, and perhaps a notice. -/
  | switched (notice : Option String)
  deriving DecidableEq, Repr

/-- The running command, if any, and what it holds. -/
structure Dispatcher where
  running : Option Ticket
  lastNumber : Nat
  continuous : Bool
  controlsEnabled : Bool
  tabs : Tabs
  timing : Timing
  deriving DecidableEq

namespace Dispatcher

/-- A dispatcher before the first command. -/
def initial : Dispatcher where
  running := none
  lastNumber := 0
  continuous := false
  controlsEnabled := true
  tabs := .initial
  timing := .zero

/-- Notice that leaving the bandwidth tab ended continuous testing. -/
def continuousDisabled : String := "Continuous testing disabled."

/-- Whether a command is running. -/
def isRunning (dispatcher : Dispatcher) : Bool := dispatcher.running.isSome

/-- The application whose tab is shown. -/
def activeApp (dispatcher : Dispatcher) : App := dispatcher.tabs.active

/-- Let the controls and every tab be used. -/
def release (dispatcher : Dispatcher) : Dispatcher :=
  { dispatcher with controlsEnabled := true, tabs := dispatcher.tabs.release }

/-- Keep the controls and all tabs but one from being used. -/
def hold (dispatcher : Dispatcher) (app : App) : Dispatcher :=
  { dispatcher with controlsEnabled := false, tabs := dispatcher.tabs.hold app }

/-- Set the timing that the next response is judged by. -/
def setTiming (dispatcher : Dispatcher) (timing : Timing) : Dispatcher :=
  { dispatcher with timing }

/-- Turn continuous testing on or off; it can be turned on from the bandwidth tab only.
Tells whether the request was followed. -/
def setContinuous (dispatcher : Dispatcher) (on : Bool) : Dispatcher × Bool :=
  if on && dispatcher.activeApp ≠ .bandwidth then (dispatcher, false)
  else
    let changed := { dispatcher with continuous := on }
    if on then (changed.hold .bandwidth, true)
    else if changed.isRunning then (changed, true)
    else (changed.release, true)

/-- Stop continuous testing, and release what it held unless a command is running. -/
def stop (dispatcher : Dispatcher) : Dispatcher := (dispatcher.setContinuous false).1

/-- Change tabs. Leaving the bandwidth tab between runs ends continuous testing. -/
def switchTab (dispatcher : Dispatcher) (app : App) : Dispatcher × TabSwitch :=
  if dispatcher.continuous && app ≠ .bandwidth && !dispatcher.isRunning then
    let released := { dispatcher with continuous := false }.release
    ({ released with tabs := (released.tabs.activate app).1 }, .switched (some continuousDisabled))
  else
    match dispatcher.tabs.activate app with
    | (tabs, true) => ({ dispatcher with tabs }, .switched none)
    | (_, false) => (dispatcher, .locked)

/-- Start a command for an application. A running command is superseded. -/
def begin (dispatcher : Dispatcher) (app : App) (now : Int) : Dispatcher × Ticket :=
  let ticket : Ticket := ⟨dispatcher.lastNumber + 1, app, now⟩
  ({ dispatcher.hold app with running := some ticket, lastNumber := ticket.number }, ticket)

/-- The running command, if a ticket is for it. -/
def current? (dispatcher : Dispatcher) (ticket : Ticket) : Option Ticket :=
  dispatcher.running.filter (·.number = ticket.number)

/-- Nanoseconds from one time to another, none if the second is the earlier one. -/
def elapsed (since now : Int) : Nat := (now - since).toNat * 1000000

/-- Take the response to a command. -/
def finish (dispatcher : Dispatcher) (ticket : Ticket) (now : Int) : Dispatcher × Finish :=
  match dispatcher.current? ticket with
  | none => (dispatcher, .stale)
  | some current =>
      let idle := { dispatcher with running := none }
      if dispatcher.continuous && current.app = .bandwidth then
        (idle, .scheduleNext (dispatcher.timing.delay (elapsed current.startedAt now)))
      else (idle.release, .released)

end Dispatcher

end NetworkConsole
