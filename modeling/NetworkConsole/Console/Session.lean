import NetworkConsole.Chart.Board
import NetworkConsole.Command.Dispatcher
import NetworkConsole.Console.Notices
import NetworkConsole.Console.Progress
import NetworkConsole.Node.Selection
import NetworkConsole.Report.Scan
import NetworkConsole.Text.Search
import NetworkConsole.Throughput.Statistics

/-!
# Sessions

A session is everything that the console shows: the dials, the charts, the chosen nodes,
the notices, the running command, the statistics, the continuous interval, the results
pane and the newest image.
-/

namespace NetworkConsole

/-- Description and markup of an image. -/
structure CameraImage where
  text : String
  html : String
  deriving DecidableEq, Repr

/-- What a response led to. -/
inductive Outcome
  /-- The command had been superseded; nothing changed. -/
  | ignored
  /-- A bandwidth run, read and plotted. -/
  | bandwidth (report : Report) (next : Finish)
  /-- A camera run, and whether its image can be fetched. -/
  | camera (fetchImage : Bool)
  /-- A run of another application. -/
  | general

/-- Fields of a form, in the order in which they are sent. -/
abbrev Form := List (String × String)

/-- Everything that the console shows. -/
structure Session where
  linkage : Linkage
  board : Chart.Board
  selection : Selection
  notices : NoticeBoard
  dispatcher : Dispatcher
  statistics : Statistics
  interval : Float
  focused : Bool
  additionalOptions : String
  results : String
  image : Option CameraImage

namespace Session

/-- The seconds dial of a direction. -/
def duration (session : Session) (direction : Direction) : Float :=
  (session.linkage.panel direction).get .seconds

/-- The interval that follows from the test durations. -/
def defaultInterval (session : Session) : Float :=
  Timing.defaultInterval (session.duration .clientToServer) (session.duration .serverToClient)

/-- Set the interval from the test durations. An interval of equal value stays as it is. -/
def refreshInterval (session : Session) : Session :=
  if session.defaultInterval != session.interval then
    { session with interval := session.defaultInterval }
  else session

/-- A session at a given time in milliseconds, before the first action. -/
def start (additionalOptions : String) (now : Int) : Session :=
  refreshInterval
    { linkage := .initial
      board := .start now .focused
      selection := .empty
      notices := .empty
      dispatcher := .initial
      statistics := .empty
      interval := 0
      focused := true
      additionalOptions
      results := ""
      image := none }

/-- The application whose tab is shown. -/
def activeApp (session : Session) : App := session.dispatcher.activeApp

/-- The least interval that can be chosen. -/
def leastInterval (session : Session) : Float :=
  Timing.leastInterval (session.duration .clientToServer) (session.duration .serverToClient)

/-- Choose the interval. A shorter one than the shorter test duration is raised to it, and
so is one that is not a number. -/
def setInterval (session : Session) (seconds : Float) : Session :=
  { session with
    interval :=
      if seconds.isFinite then Number.larger seconds session.leastInterval
      else session.leastInterval }

/-- The timing of the next continuous run. -/
def timing (session : Session) : Timing where
  clientToServer := session.duration .clientToServer
  serverToClient := session.duration .serverToClient
  interval := session.interval

/-- Put up a notice. -/
def post (session : Session) (text : String) (now : Int) : Session :=
  { session with notices := session.notices.post text now }

/-- An edit of a dial. The writes that follow from it are delivered before it returns, and
the interval follows an edit of a test duration. -/
def changeDial
    (session : Session)
    (direction : Direction)
    (dial : Dial)
    (value : Float)
    (now : Int) : Session × List ChangeReport :=
  let (changed, report) := session.linkage.change direction dial value
  let (settled, deliveries) := changed.settle
  let reports := report :: deliveries
  let noticed :=
    (reports.flatMap (·.notices)).foldl (fun session notice => session.post notice.text now)
      { session with linkage := settled }
  (if dial = .seconds then noticed.refreshInterval else noticed, reports)

/-- Lock a dial. -/
def setLock (session : Session) (direction : Direction) (lock : Lock) : Session :=
  { session with linkage := session.linkage.setLock direction lock }

/-- Replace the panel of a direction. A panel with a dial out of range is refused. -/
def loadPanel (session : Session) (direction : Direction) (panel : Panel) :
    Except ConsoleError Session :=
  match panel.checkRanges with
  | .error error => .error (.dial error)
  | .ok () => .ok { session with linkage := session.linkage.load direction panel }.refreshInterval

/-- Turn continuous testing on or off; tells whether the request was followed. -/
def setContinuous (session : Session) (on : Bool) : Session × Bool :=
  let (dispatcher, followed) := session.dispatcher.setContinuous on
  ({ session with dispatcher }, followed)

/-- Stop continuous testing. -/
def stop (session : Session) : Session := { session with dispatcher := session.dispatcher.stop }

/-- Change tabs; tells whether the tab could be changed. -/
def switchTab (session : Session) (app : App) (now : Int) : Session × Bool :=
  match session.dispatcher.switchTab app with
  | (_, .locked) => (session, false)
  | (dispatcher, .switched none) => ({ session with dispatcher }, true)
  | (dispatcher, .switched (some notice)) => ({ session with dispatcher }.post notice now, true)

/-- Change the cadence of the charts with the console's focus. -/
def setFocus (session : Session) (focused : Bool) : Session :=
  { session with focused, board := session.board.setFocus focused }

/-- Let the charts tick. -/
def tick (session : Session) (now : Int) : Session :=
  { session with board := session.board.tick now }

/-- Form fields of a command of the active application. -/
def form (session : Session) : Except ConsoleError Form := do
  let app := session.activeApp
  let client ← session.selection.formFields .client app
  let server ← session.selection.formFields .server app
  let common := client ++ server ++ [("addl_opt", session.additionalOptions), ("apps", app.name)]
  let arguments := Direction.all.map fun direction =>
    ("bw_" ++ direction.tag, (session.linkage.panel direction).testArgument direction)
  .ok (if app = .bandwidth then common ++ arguments else common)

/-- Start a command of the active application. The results pane is cleared unless testing
is continuous, and shows the command's line. -/
def begin (session : Session) (now : Int) : Session × Ticket :=
  let app := session.activeApp
  let kept := if session.dispatcher.continuous then session.results else ""
  let (dispatcher, ticket) := session.dispatcher.begin app now
  ({ session with
      dispatcher
      results := kept ++ Progress.heading app
      image := if app = .camera then none else session.image },
    ticket)

/-- Add a progress dot to the results pane. -/
def addDot (session : Session) : Session := { session with results := session.results ++ "." }

/-- What the camera client prints once its image is stored. -/
def cameraDone : String := "Done, exiting"

/-- Take the report of a bandwidth run into the charts and the statistics. A rate that the
statistics do not take is given back as the error. -/
def record (session : Session) (report : Report) (next : Finish) (time : Int) :
    Session × Except Nat Outcome :=
  let plotted := { session with board := session.board.record report time }
  match plotted.statistics.record report with
  | .ok statistics => ({ plotted with statistics }, .ok (.bandwidth report next))
  | .error rate => (plotted, .error rate)

/-- Take the response to a command. It replaces the results pane, unless the command has
been superseded. As in `record`, a rate that is not taken is given back as the error. -/
def finish
    (session : Session)
    (ticket : Ticket)
    (response : String)
    (now : Int)
    (time : Int) : Session × Except Nat Outcome :=
  match (session.dispatcher.setTiming session.timing).finish ticket now with
  | (dispatcher, .stale) => ({ session with dispatcher }, .ok .ignored)
  | (dispatcher, next) =>
      let shown := { session with dispatcher, results := response }
      match ticket.app with
      | .bandwidth => shown.record (.ofOutput response shown.linkage) next time
      | .camera =>
          (shown, .ok (.camera (Text.contains cameraDone.toList response.toList)))
      | .sensor => (shown, .ok .general)

/-- Show an image. -/
def setImage (session : Session) (image : CameraImage) : Session :=
  { session with image := some image }

/-- Forget the notice if it is no longer visible. -/
def expire (session : Session) (now : Int) : Session :=
  { session with notices := session.notices.expire now }

/-- Take the texts of the notices shown since the last time. -/
def drainNotices (session : Session) : Session × List String :=
  let (notices, texts) := session.notices.drain
  ({ session with notices }, texts)

/-- Choose the first node of a role, if any is listed. -/
def selectFirst (session : Session) (role : Role) : Session :=
  match session.selection.select role session.activeApp 0 with
  | .ok (selection, _) => { session with selection }
  | .error _ => session

/-- Clear the results pane and the image, lock the size dials and choose the first nodes. -/
def reset (session : Session) : Session :=
  let cleared := { session with results := "", image := none }
  let locked :=
    Direction.all.foldl (fun session direction => session.setLock direction .size) cleared
  Role.all.foldl selectFirst locked

end Session

end NetworkConsole
