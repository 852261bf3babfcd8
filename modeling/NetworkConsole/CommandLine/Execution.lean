import NetworkConsole.CommandLine.Invocation
import NetworkConsole.Console.Conversation
import NetworkConsole.Display.Charts
import NetworkConsole.Display.Nodes
import NetworkConsole.Display.Output
import NetworkConsole.Display.Summary

/-!
# Carrying out a command

Every command first loads the nodes. After that it may fail, but the notices of the
session are printed in any case.
-/

namespace NetworkConsole

/-- Why a command cannot go on. -/
inductive Obstacle
  | error (cause : ConsoleError)
  /-- The tabs are held, so that the tab of an application cannot be shown. -/
  | heldTabs (app : App)
  /-- Continuous testing is asked for on another tab than that of the bandwidth test. -/
  | otherTab

/-- The wordings of an obstacle, from the outermost cause to the innermost. -/
def Obstacle.chain : Obstacle → List String
  | .error cause => cause.chain
  | .heldTabs app => ["Cannot switch to " ++ app.name ++ " while a command is running"]
  | .otherTab => ["Continuous testing is only available for the bandwidth test"]

/-- Why a command failed: what was being done, where it needs saying, and the obstacle. -/
structure Failure where
  context : Option String
  obstacle : Obstacle

/-- The wording of a failure, from the outermost cause to the innermost. -/
def Failure.message (failure : Failure) : String :=
  ": ".intercalate (failure.context.toList ++ failure.obstacle.chain)

/-- What a command prints to: how text is shown there, and whether someone watches it; and
what the libraries below the console remark. -/
structure Surroundings where
  terminal : Display.Terminal
  watched : Bool
  remarks : Remarks

/-- A console after a command, and its failure, if it failed. -/
abbrev Completion := Console × Option Failure

/-- A completion with an obstacle that needs no context. -/
def Console.failed (console : Console) (obstacle : Obstacle) : Completion :=
  (console, some ⟨none, obstacle⟩)

namespace BandwidthPlan

/-- Set the dials of one direction: its parameters, its lock, and then its bandwidth. -/
def prepareDirection (plan : BandwidthPlan) (console : Console) (direction : Direction) :
    Completion :=
  match console.session.loadPanel direction (.ofParameters (plan.parameters.get direction)) with
  | .error error =>
      (console, some ⟨some ("Invalid " ++ direction.tag ++ " test parameters"), .error error⟩)
  | .ok session =>
      let locked :=
        { console with session := session.setLock direction (plan.locks.get direction) }
      match plan.bandwidths.get direction with
      | none => (locked, none)
      | some bandwidth => ((locked.changeDial direction .bandwidth bandwidth).1, none)

/-- Choose the interval, where asked to. -/
def chooseInterval (plan : BandwidthPlan) (session : Session) : Session :=
  match plan.interval with
  | none => session
  | some seconds => session.setInterval seconds

/-- Choose the interval and turn on continuous testing, where asked to. -/
def prepareSchedule (plan : BandwidthPlan) (console : Console) : Completion :=
  let scheduled := plan.chooseInterval console.session
  if plan.continuous then
    match scheduled.setContinuous true with
    | (session, true) => ({ console with session }, none)
    | (session, false) => Console.failed { console with session } .otherTab
  else ({ console with session := scheduled }, none)

/-- Set the dials of both directions and the schedule. -/
def prepare (plan : BandwidthPlan) (console : Console) : Completion :=
  match plan.prepareDirection console .clientToServer with
  | (first, some failure) => (first, some failure)
  | (first, none) =>
      match plan.prepareDirection first .serverToClient with
      | (second, some failure) => (second, some failure)
      | (second, none) => plan.prepareSchedule second

/-- The number of runs after which testing ends: a test that is not continuous runs once. -/
def limit (plan : BandwidthPlan) : Option Nat := if plan.continuous then plan.runs else some 1

/-- Carry out a bandwidth test. The charts and the statistics are shown after continuous
testing and after more than one run. -/
def carryOut
    (plan : BandwidthPlan)
    (terminal : Display.Terminal)
    (patience : Nat)
    (console : Console) : Dialogue Completion :=
  match plan.prepare console with
  | (prepared, some failure) => .done (prepared, some failure)
  | (prepared, none) => do
      let display (session : Session) (report : Report) (time : Int) :=
        Display.run terminal session.linkage report time
      let (tested, runs) ← prepared.runBandwidth display plan.limit patience
      match runs.failure with
      | some error => return tested.failed (.error error)
      | none =>
          let stopped := tested.stop
          if 1 < runs.runs.length ∨ plan.continuous then
            .print (Display.charts terminal stopped.session.board) <|
              .print (Display.summary terminal stopped.session.statistics) <|
                .done (stopped, none)
          else return (stopped, none)

end BandwidthPlan

namespace Console

/-- The line that stands for an image that could not be fetched. -/
def missingImage (terminal : Display.Terminal) : String :=
  Text.paint terminal.colours .red "Image could not be retrieved." ++ "\n"

/-- Choose the server with a given name for an application; without a name nothing changes. -/
def chooseServer (console : Console) (app : App) : Option String → Except ConsoleError Console
  | none => .ok console
  | some name => do
      let (selection, _) ← console.session.selection.selectNamed .server app name
      .ok (console.withSelection selection)

/-- What is shown after the command of an application other than the bandwidth test. -/
def resultText (terminal : Display.Terminal) (outcome : Outcome) (session : Session) : String :=
  Display.output terminal session ++
    match outcome, session.image with
    | .camera true, none => missingImage terminal
    | _, _ => ""

/-- Carry out the command of an application on its tab. -/
def carryOutApp
    (terminal : Display.Terminal)
    (app : App)
    (server : Option String)
    (console : Console) : Dialogue Completion :=
  match console.switchTab app with
  | (held, false) => .done (held.failed (.heldTabs app))
  | (switched, true) =>
      match switched.chooseServer app server with
      | .error error => .done (switched.failed (.error error))
      | .ok ready => do
          let (finished, outcome) ← ready.runCommand
          match outcome with
          | .error error => return finished.failed (.error error)
          | .ok outcome =>
              .print (resultText terminal outcome finished.session) (.done (finished, none))

/-- The list of clients with the chosen one marked. -/
def clientText (terminal : Display.Terminal) (selection : Selection) : String :=
  match selection.options .client .bandwidth with
  | .error _ => ""
  | .ok clients =>
      Display.nodes terminal "Clients:" clients (selection.selected .client .bandwidth).toOption

/-- The list of an application's servers with the chosen one marked. -/
def serverText (terminal : Display.Terminal) (selection : Selection) (app : App) : String :=
  match selection.options .server app with
  | .error _ => ""
  | .ok servers =>
      Display.nodes terminal ("Servers for " ++ app.name ++ ":") servers
        (selection.selected .server app).toOption

/-- Print the lists of nodes. -/
def carryOutNodes (terminal : Display.Terminal) (console : Console) : Dialogue Completion :=
  let selection := console.session.selection
  .print (clientText terminal selection ++
      String.join (App.all.map (serverText terminal selection)))
    (.done (console, none))

/-- Print the notices that have not been printed yet. -/
def printNotices (terminal : Display.Terminal) (console : Console) : Dialogue Console :=
  let (session, notices) := console.session.drainNotices
  .print (String.join (notices.map (Display.notice terminal))) (.done { console with session })

end Console

/-- Carry out a command on a console that has loaded the nodes. -/
def ConsoleCommand.carryOut
    (command : ConsoleCommand)
    (settings : Settings)
    (terminal : Display.Terminal)
    (patience : Nat)
    (console : Console) : Dialogue Completion :=
  match command with
  | .bandwidth plan => plan.carryOut terminal patience console
  | .camera => console.carryOutApp terminal .camera settings.server
  | .sensor => console.carryOutApp terminal .sensor settings.server
  | .nodes => console.carryOutNodes terminal

/-- The server to choose when the nodes are loaded. The commands of other applications choose
theirs once their tab is shown. -/
def Invocation.firstServer (invocation : Invocation) : Option String :=
  match invocation.command with
  | .bandwidth _ | .nodes => invocation.settings.server
  | .camera | .sensor => none

/-- The console that a command starts with. -/
def Invocation.console
    (invocation : Invocation)
    (surroundings : Surroundings)
    (clock : Clock) : Console :=
  let started :=
    Console.start surroundings.remarks invocation.settings.additionalOptions clock
  { started with
    session := started.session.setFocus (invocation.settings.chartsFocused surroundings.watched) }

/-- Carry out a command from the start, and keep the console that it leaves. Continuous
testing without a limit ends after `patience` runs. -/
def Invocation.completion
    (invocation : Invocation)
    (surroundings : Surroundings)
    (patience : Nat)
    (clock : Clock) : Dialogue Completion := do
  let settings := invocation.settings
  let (loaded, result) ←
    (invocation.console surroundings clock).loadNodes settings.client invocation.firstServer
  match result with
  | .error error => return (loaded, some ⟨some "Failed to load node lists", .error error⟩)
  | .ok () =>
      let (finished, failure) ←
        invocation.command.carryOut settings surroundings.terminal patience loaded
      let ended ← finished.printNotices surroundings.terminal
      return (ended, failure)

/-- Carry out a command from the start. -/
def Invocation.carryOut
    (invocation : Invocation)
    (surroundings : Surroundings)
    (patience : Nat)
    (clock : Clock) : Dialogue (Option Failure) := do
  let (_, failure) ← invocation.completion surroundings patience clock
  return failure

end NetworkConsole
