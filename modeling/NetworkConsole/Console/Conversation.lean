import NetworkConsole.Console.Dialogue

/-!
# Conversations of the console

What the console does with the backend: it loads node lists, runs commands, fetches
images and repeats bandwidth tests. The charts go on ticking while it waits.
-/

namespace NetworkConsole

/-- A session, the last reading of the clocks, and what the libraries below remark. -/
structure Console where
  session : Session
  clock : Clock
  remarks : Remarks

namespace Console

/-- A console at given clock readings. -/
def start (remarks : Remarks) (additionalOptions : String) (clock : Clock) : Console :=
  ⟨.start additionalOptions clock.wall, clock, remarks⟩

/-- Put up a notice now. -/
def post (console : Console) (text : String) : Console :=
  { console with session := console.session.post text console.clock.steady }

/-- Put up an error as a notice. -/
def notify (console : Console) (error : ConsoleError) : Console := console.post error.message

/-- The times at which charts tick between two readings of the wall clock: at the first
reading and then at equal intervals. -/
def tickTimes (cadence : Chart.Cadence) (first last : Int) : List Int :=
  let elapsed := (last - first).toNat * 1000000
  (List.range (elapsed / cadence.tickNanoseconds + 1)).map fun (index : Nat) =>
    first + ((index * cadence.tickNanoseconds / 1000000 : Nat) : Int)

/-- Let the charts tick until a new reading of the clocks. -/
def waitUntil (console : Console) (clock : Clock) : Console :=
  let times := tickTimes console.session.board.window.cadence console.clock.wall clock.wall
  { console with session := times.foldl Session.tick console.session, clock }

/-- Fetch a catalog of nodes. -/
def fetchCatalog (list : NodeList) (console : Console) :
    Dialogue (Console × Except ConsoleError Catalog) :=
  .ask (.nodes list) fun answer =>
    .done ({ console with clock := answer.clock },
      answer.result.bind (Catalog.read console.remarks.onText))

/-- Replace the selection of nodes. -/
def withSelection (console : Console) (selection : Selection) : Console :=
  { console with session := { console.session with selection } }

/-- Give up an action: its error becomes a notice. -/
def giveUp (console : Console) (error : ConsoleError) : Console × Except ConsoleError α :=
  (console.notify error, .error error)

/-- Load the servers that go with a client, and choose the one with a given name. -/
def selectClient (client : Node) (server : Option String) (console : Console) :
    Dialogue (Console × Except ConsoleError Unit) := do
  let (console, catalog) ← console.fetchCatalog (.serversFor client)
  match catalog with
  | .error error => return console.giveUp error
  | .ok catalog =>
      let session := console.session
      let loaded := console.withSelection (session.selection.setCatalog .server catalog)
      match server with
      | none => return (loaded, .ok ())
      | some name =>
          match loaded.session.selection.selectNamed .server session.activeApp name with
          | .error error => return loaded.giveUp error
          | .ok (selection, _) => return (loaded.withSelection selection, .ok ())

/-- The client with a given name, or else the one chosen already. -/
def chooseClient (client : Option String) (console : Console) :
    Except ConsoleError (Selection × Node) :=
  let session := console.session
  match client with
  | some name => session.selection.selectNamed .client session.activeApp name
  | none =>
      (session.selection.selected .client session.activeApp).map fun node =>
        (session.selection, node)

/-- Load the clients and then the servers that go with the chosen client. -/
def loadNodes (client server : Option String) (console : Console) :
    Dialogue (Console × Except ConsoleError Unit) := do
  let (console, catalog) ← console.fetchCatalog .clientsDefault
  match catalog with
  | .error error => return console.giveUp error
  | .ok catalog =>
      let loaded := console.withSelection (console.session.selection.setCatalog .client catalog)
      match loaded.chooseClient client with
      | .error error => return loaded.giveUp error
      | .ok (selection, node) => (loaded.withSelection selection).selectClient node server

/-- Change tabs and choose the first server of the tab's application; tells whether the tab
could be changed. -/
def switchTab (console : Console) (app : App) : Console × Bool :=
  match console.session.switchTab app console.clock.steady with
  | (session, false) => ({ console with session }, false)
  | (session, true) =>
      match session.selection.select .server app 0 with
      | .ok (selection, _) => ({ console with session := { session with selection } }, true)
      | .error _ => ({ console with session }, true)

/-- An edit of a dial. -/
def changeDial (console : Console) (direction : Direction) (dial : Dial) (value : Float) :
    Console × List ChangeReport :=
  let (session, reports) := console.session.changeDial direction dial value console.clock.steady
  ({ console with session }, reports)

/-- Milliseconds from the end of a camera run to the request for its image. -/
def imageDelay : Nat := 500

/-- Fetch the newest image: its description first and then its markup. -/
def fetchImage (console : Console) : Dialogue Console :=
  .pause imageDelay fun clock =>
    let waited := console.waitUntil clock
    .ask .imageText fun description =>
      let described := { waited with clock := description.clock }
      match description.result with
      | .error error => .done (described.notify error)
      | .ok text =>
          .ask .image fun markup =>
            let fetched := { described with clock := markup.clock }
            match markup.result with
            | .error error => .done (fetched.notify error)
            | .ok html =>
                .done { fetched with session := fetched.session.setImage ⟨text, html⟩ }

/-- The text that stands for a response: the response itself, or the wording of the error,
which also becomes a notice. -/
def receive (console : Console) : Except ConsoleError String → Console × String
  | .ok text => (console, text)
  | .error error => (console.notify error, error.message)

/-- Take the answer to a command that has begun. -/
def takeAnswer (console : Console) (ticket : Ticket) (answer : Answer) :
    Console × Except ConsoleError Outcome :=
  let (received, text) := (console.waitUntil answer.clock).receive answer.result
  let (session, outcome) :=
    received.session.finish ticket text answer.clock.steady answer.clock.wall
  ({ received with session },
    outcome.mapError fun rate => .statistics (received.remarks.onRate rate))

/-- Fetch the image that a command has left, if it has left one. -/
def fetchImageAfter (outcome : Except ConsoleError Outcome) (console : Console) :
    Dialogue Console :=
  match outcome with
  | .ok (.camera true) => console.fetchImage
  | _ => .done console

/-- Run the client of the active application once. -/
def runCommand (console : Console) : Dialogue (Console × Except ConsoleError Outcome) :=
  match console.session.form with
  | .error error => .done (console, .error error)
  | .ok form =>
      let (begun, ticket) := console.session.begin console.clock.steady
      .ask (.command form) fun answer => do
        let (finished, outcome) := takeAnswer { console with session := begun } ticket answer
        let ended ← finished.fetchImageAfter outcome
        return (ended, outcome)

/-- A bandwidth run that is over, and the session after it. -/
structure Run where
  session : Session
  report : Report

/-- What repeated bandwidth runs came to: the runs that are over, and the error that ended
them, if any. -/
structure Runs where
  runs : List Run
  failure : Option ConsoleError

/-- Stop continuous testing. -/
def stop (console : Console) : Console := { console with session := console.session.stop }

/-- Repeat bandwidth runs, at most `rounds` times, until continuous testing stops or there
are as many runs as the limit allows. Each run is displayed when it is over. -/
def repeatRuns (display : Session → Report → Int → String) (limit : Option Nat) :
    (rounds : Nat) → List Run → Console → Dialogue (Console × Runs)
  | 0, runs, console => .done (console, ⟨runs, none⟩)
  | rounds + 1, runs, console => do
      let (console, outcome) ← console.runCommand
      match outcome with
      | .error error => return (console, ⟨runs, some error⟩)
      | .ok .ignored => repeatRuns display limit rounds runs console
      | .ok (.bandwidth report next) =>
          let runs := runs ++ [⟨console.session, report⟩]
          .print (display console.session report console.clock.wall) <|
            match next with
            | .scheduleNext delay =>
                if limit.all (runs.length < ·) then
                  .pause delay fun clock =>
                    let waited := console.waitUntil clock
                    if waited.session.dispatcher.continuous then
                      repeatRuns display limit rounds runs waited
                    else .done (waited, ⟨runs, none⟩)
                else .done (console.stop, ⟨runs, none⟩)
            | _ => .done (console, ⟨runs, none⟩)
      | .ok _ => return (console, ⟨runs, none⟩)

/-- Repeat bandwidth runs, of which there is at least one. Without a limit they end after
`patience` rounds at the latest. -/
def runBandwidth
    (display : Session → Report → Int → String)
    (limit : Option Nat)
    (patience : Nat)
    (console : Console) : Dialogue (Console × Runs) :=
  console.repeatRuns display limit (max (limit.getD patience) 1) []

end Console

end NetworkConsole
