import NetworkConsole.CommandLine.Options
import NetworkConsole.Console.Settings
import NetworkConsole.Dial.Panel

/-!
# Invocations

An invocation is a command of the console with the settings that all commands share. The
settings come before the command, and the options of a bandwidth test after it.
-/

namespace NetworkConsole

/-- What a bandwidth test is asked to do. -/
structure BandwidthPlan where
  parameters : PerDirection TestParameters := .both ⟨3, 1000, 30⟩
  locks : PerDirection Lock := .both .size
  /-- Bandwidths to be dialled, in megabits per second. -/
  bandwidths : PerDirection (Option Float) := .both none
  continuous : Bool := false
  /-- The number of runs after which continuous testing ends. -/
  runs : Option Nat := none
  /-- Seconds between continuous runs. -/
  interval : Option Float := none

namespace BandwidthPlan

/-- Replace the parameters of a direction. -/
def setParameters (direction : Direction) (parameters : TestParameters) (plan : BandwidthPlan) :
    BandwidthPlan :=
  { plan with parameters := plan.parameters.set direction parameters }

/-- Replace the locked dial of a direction. -/
def setLock (direction : Direction) (lock : Lock) (plan : BandwidthPlan) : BandwidthPlan :=
  { plan with locks := plan.locks.set direction lock }

/-- Replace the bandwidth to be dialled for a direction. -/
def setBandwidth (direction : Direction) (bandwidth : Float) (plan : BandwidthPlan) :
    BandwidthPlan :=
  { plan with bandwidths := plan.bandwidths.set direction (some bandwidth) }

end BandwidthPlan

/-- A command of the console. -/
inductive ConsoleCommand
  | bandwidth (plan : BandwidthPlan)
  | camera
  | sensor
  | nodes

/-- A command with its settings. -/
structure Invocation where
  settings : Settings
  command : ConsoleCommand

namespace CommandLine

/-- A result whose refusal, in words, makes a value malformed. -/
def orMalformed (result : Except String α) : Except ValueError α :=
  result.mapError .malformed

/-- Take a natural number that fits in 64 bits. -/
def takeNat (set : Nat → σ → σ) : Take σ := fun text value => do
  let number ← orMalformed
    ((Number.readNat UInt64.size text.toList).mapError Number.NatError.message)
  .ok (set number value)

/-- Take a decimal numeral. -/
def takeFloat (set : Float → σ → σ) : Take σ := fun text value =>
  match Number.readFloat? text.toList with
  | some number => .ok (set number value)
  | none => .error (.malformed (Number.floatErrorMessage text.toList))

/-- Take a value that may be refused as a dial parameter. -/
def takeDial (read : String → Except DialError α) (set : α → σ → σ) : Take σ :=
  fun text value => do
    let result ← orMalformed ((read text).mapError DialError.message)
    .ok (set result value)

/-- Take any text. -/
def takeText (set : String → σ → σ) : Take σ := fun text value => .ok (set text value)

/-- Take one of the listed texts. -/
def takeListed (listed : List String) (set : String → σ → σ) : Take σ := fun text value =>
  if text ∈ listed then .ok (set text value) else .error .unlisted

/-- The options that all commands share. -/
def settingRule? : String → Option (OptionRule Settings)
  | "backend" => some (.valued (takeText fun text settings => { settings with backend := text }))
  | "timeout-ms" =>
      some (.valued (takeNat fun number settings => { settings with timeout := number }))
  | "client" =>
      some (.valued (takeText fun text settings => { settings with client := some text }))
  | "server" =>
      some (.valued (takeText fun text settings => { settings with server := some text }))
  | "addl-opt" =>
      some (.valued (takeText fun text settings => { settings with additionalOptions := text }))
  | "utc" => some (.flag fun settings => { settings with utc := true })
  | "quiet" => some (.flag fun settings => { settings with quiet := true })
  | "log-level" =>
      some (.valued (takeText fun text settings => { settings with logLevel := text }))
  | "log-format" =>
      some (.valued (takeListed ["text", "json"] fun text settings =>
        { settings with logFormat := text }))
  | "help" => some .help
  | _ => none

/-- The options of a bandwidth test. -/
def bandwidthRule? : String → Option (OptionRule BandwidthPlan)
  | "cs" =>
      some (.valued (takeDial TestParameters.ofText (BandwidthPlan.setParameters .clientToServer)))
  | "sc" =>
      some (.valued (takeDial TestParameters.ofText (BandwidthPlan.setParameters .serverToClient)))
  | "lock-cs" => some (.valued (takeDial Lock.ofName (BandwidthPlan.setLock .clientToServer)))
  | "lock-sc" => some (.valued (takeDial Lock.ofName (BandwidthPlan.setLock .serverToClient)))
  | "bw-cs" => some (.valued (takeFloat (BandwidthPlan.setBandwidth .clientToServer)))
  | "bw-sc" => some (.valued (takeFloat (BandwidthPlan.setBandwidth .serverToClient)))
  | "continuous" => some (.flag fun plan => { plan with continuous := true })
  | "runs" => some (.valued (takeNat fun number plan => { plan with runs := some number }))
  | "interval" =>
      some (.valued (takeFloat fun seconds plan => { plan with interval := some seconds }))
  | "help" => some .help
  | _ => none

/-- The options of a command that has none of its own. -/
def helpRule? : String → Option (OptionRule Unit)
  | "help" => some .help
  | _ => none

/-- The word that asks for help on a command. -/
def helpWord : String := "help"

/-- The commands, and the word that asks for help on one of them. -/
def commandWords : List String := ["bwtest", "camera", "sensor", "nodes", helpWord]

/-- What the words after a request for help lead to: help on at most one command. -/
def helpOn : List String → UsageError
  | [] => .help
  | [topic] => if topic ∈ commandWords then .help else .unknownCommand
  | _ => .unknownCommand

/-- Read all the words after a command. -/
def readAll (rule? : String → Option (OptionRule σ)) (value : σ) (words : List String) :
    Except UsageError σ := do
  let (reading, _) ← Vocabulary.read ⟨rule?, []⟩ words (.start value)
  let closed ← reading.close
  .ok closed.value

/-- Read the words from a command on. -/
def readCommand : List String → Except UsageError ConsoleCommand
  | [] => .error .noCommand
  | command :: words =>
      match command with
      | "bwtest" => do
          let plan ← readAll bandwidthRule? {} words
          .ok (.bandwidth plan)
      | "camera" => do
          readAll helpRule? () words
          .ok .camera
      | "sensor" => do
          readAll helpRule? () words
          .ok .sensor
      | "nodes" => do
          readAll helpRule? () words
          .ok .nodes
      | _ => .error (helpOn words)

end CommandLine

/-- Read the words of a command line. A refusal of the words after a command wins over that
of an option left open before it. -/
def Invocation.ofWords (words : List String) : Except CommandLine.UsageError Invocation := do
  let (reading, rest) ←
    CommandLine.Vocabulary.read ⟨CommandLine.settingRule?, CommandLine.commandWords⟩ words
      (.start {})
  if rest = [] then
    let closed ← reading.close
    .error (if closed.given = [] then .nothingGiven else .noCommand)
  else
    let command ← CommandLine.readCommand rest
    let closed ← reading.close
    .ok ⟨closed.value, command⟩

end NetworkConsole
