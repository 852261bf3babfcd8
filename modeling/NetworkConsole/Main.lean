import NetworkConsole.CommandLine.Execution
import NetworkConsole.CommandLine.Usage
import NetworkConsole.Http.Wire
import Std.Async.DNS
import Std.Async.TCP

/-!
# The console as a program

Dialogues are carried out against the backend over a connection for each request.
-/

namespace NetworkConsole.Program

open Std.Async Std.Net

/-- Receive bytes until the other side closes the connection. -/
partial def receive (socket : TCP.Socket.Client) (received : List UInt8) : Async (List UInt8) := do
  match ← socket.recv? 65536 with
  | some bytes => receive socket (received ++ bytes.toList)
  | none => return received

/-- The socket address of a host address. -/
def socketAddress (port : UInt16) : IPAddr → SocketAddress
  | .v4 addr => .v4 ⟨addr, port⟩
  | .v6 addr => .v6 ⟨addr, port⟩

/-- Send a message to an endpoint and receive all of the response. -/
def exchange (endpoint : Http.Endpoint) (message : Http.Message) : Async (List UInt8) := do
  let addresses ← DNS.getAddrInfo endpoint.host (toString endpoint.port)
  match addresses[0]? with
  | none => return []
  | some address =>
      let socket ← TCP.Socket.Client.mk
      socket.connect (socketAddress endpoint.port.toUInt16 address)
      socket.send (message.wireText endpoint).toUTF8
      receive socket []

/-- Wait for a task, for a number of steps of ten milliseconds. -/
def await (task : Task (Except IO.Error α)) : (steps : Nat) → IO (Option α)
  | 0 => return none
  | steps + 1 => do
      if ← IO.hasFinished task then return task.get.toOption
      IO.sleep 10
      await task steps

/-- Make a request to the backend. -/
def ask (settings : Settings) (request : Request) : IO (Except ConsoleError String) := do
  let path := request.message.path
  match Http.Endpoint.below? settings.backend path with
  | none => return .error (.transport ("no endpoint for " ++ path) [])
  | some endpoint =>
      if endpoint.isSecure then
        return .error (.transport ("no secure connection for " ++ path) [])
      let task ← IO.asTask (exchange endpoint request.message).block
      let bytes ← await task (settings.timeout / 10 + 1)
      match bytes.bind Http.Response.ofBytes? with
      | none => return .error (.transport ("no response to " ++ path) [])
      | some response => return request.result ("no final response to " ++ path) response

/-- Read the clocks. -/
def readClock : IO Clock := do
  let steady ← IO.monoMsNow
  let wall ← Std.Time.Timestamp.now
  return ⟨steady, wall.toMillisecondsSinceUnixEpoch.val⟩

/-- Print a text at once. -/
def print (text : String) : IO Unit := do
  let output ← IO.getStdout
  output.putStr text
  output.flush

/-- Carry out a dialogue. -/
def perform (settings : Settings) : Dialogue α → IO α
  | .done value => return value
  | .ask request resume => do
      let result ← ask settings request
      let clock ← readClock
      perform settings (resume ⟨result, clock⟩)
  | .pause milliseconds resume => do
      IO.sleep milliseconds.toUInt32
      let clock ← readClock
      perform settings (resume clock)
  | .print text rest => do
      print text
      perform settings rest

/-- The number of runs after which continuous testing without a limit ends. -/
def patience : Nat := UInt64.size

/-- What is said of a text that is not a catalog, and of a rate beyond the statistics. -/
def remarks : Remarks where
  onText _ := "lists of nodes expected"
  onRate rate := toString rate ++ " is out of range"

/-- Carry out a command, and print why it failed. -/
def execute (invocation : Invocation) : IO UInt32 := do
  let watched ← (← IO.getStdout).isTty
  let clock ← readClock
  let failure ← perform invocation.settings
    (invocation.carryOut ⟨⟨watched⟩, watched, remarks⟩ patience clock)
  match failure with
  | none => return 0
  | some failure =>
      IO.eprintln ("Error: " ++ failure.message)
      return 1

/-- Run a command line. -/
def run (words : List String) : IO UInt32 :=
  match Invocation.ofWords words with
  | .error error => do
      if error = .help then print error.display else IO.eprint error.display
      return error.exitCode
  | .ok invocation =>
      match invocation.settings.validate with
      | .error error => do
          IO.eprintln ("Configuration error: " ++ (ConsoleError.configuration error).message)
          return 1
      | .ok () => execute invocation

end NetworkConsole.Program

/-- The console's entry point. -/
def main (words : List String) : IO UInt32 := NetworkConsole.Program.run words
