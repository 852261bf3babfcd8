import NetworkConsole.Console.Error

/-!
# Settings

The options that every command of the console shares, and the checks made before the
console starts.
-/

namespace NetworkConsole

/-- Options shared by all commands. Timeouts are in milliseconds. -/
structure Settings where
  backend : String := "http://127.0.0.1:8080"
  timeout : Nat := 30000
  client : Option String := none
  server : Option String := none
  additionalOptions : String := ""
  utc : Bool := false
  quiet : Bool := false
  logLevel : String := "warn"
  logFormat : String := "text"
  deriving DecidableEq, Repr

namespace Settings

/-- ASCII lower-case form of a text. -/
def lowerCase (text : String) : String := String.ofList (text.toList.map Char.toLower)

/-- Whether log lines are written as JSON. -/
def isJsonFormat (settings : Settings) : Bool := lowerCase settings.logFormat = "json"

/-- Charts tick at the faster rate only where someone can watch them. -/
def chartsFocused (settings : Settings) (isTerminal : Bool) : Bool := !settings.quiet && isTerminal

/-- Whether a backend's address has a known scheme. -/
def hasScheme (address : String) : Bool :=
  "http://".toList.isPrefixOf address.toList || "https://".toList.isPrefixOf address.toList

/-- Refuse settings that the console cannot start with. -/
def validate (settings : Settings) : Except ConfigurationError Unit :=
  if !hasScheme settings.backend then .error (.backendScheme settings.backend)
  else if settings.timeout = 0 then .error .zeroTimeout
  else if lowerCase settings.logLevel ∉ logLevels then .error (.logLevel settings.logLevel)
  else .ok ()

end Settings

end NetworkConsole
