import NetworkConsole.Dial.Error
import NetworkConsole.Node.Basic

/-!
# Errors of the console

The causes for which the console gives up an action, with their wording. Where the cause
lies in a library below the console, the wording holds the library's own remark.
-/

namespace NetworkConsole

/-- What the libraries below the console say of the input that they refuse. -/
structure Remarks where
  /-- What the reader of node lists says of a text that is not a catalog. -/
  onText : String → String
  /-- What the histograms say of a rate beyond their bounds. -/
  onRate : Nat → String

/-- How a backend broke its contract. -/
inductive ContractViolation
  /-- A node list was not a catalog, as its reader remarks. -/
  | malformedCatalog (remark : String)
  /-- No node list has been loaded for a role. -/
  | noNodeList (role : Role)
  /-- A catalog has no list under a key. -/
  | noEntry (key : String)
  /-- The list for a role is empty. -/
  | emptyList (role : Role) (app : App)
  /-- A request was answered with a status other than success, and perhaps a text. -/
  | answered (path : String) (status : String) (body : Option String)
  /-- A failure that the backend describes itself. -/
  | reported (text : String)
  deriving DecidableEq, Repr

/-- The wording of a broken contract. -/
def ContractViolation.message : ContractViolation → String
  | .malformedCatalog remark => "node list is not valid JSON: " ++ remark
  | .noNodeList role => "no " ++ role.suffix ++ " node list loaded"
  | .noEntry key => "node list has no entry for '" ++ key ++ "'"
  | .emptyList role app => role.suffix ++ " node list for " ++ app.name ++ " is empty"
  | .answered path status none => path ++ " answered " ++ status
  | .answered path status (some body) => path ++ " answered " ++ status ++ ": " ++ body
  | .reported text => text

/-- Why a setting or a selection is refused. -/
inductive ConfigurationError
  /-- The backend's address has no known scheme. -/
  | backendScheme (address : String)
  /-- The timeout of requests is zero. -/
  | zeroTimeout
  /-- The log level is not one of the known levels. -/
  | logLevel (level : String)
  /-- There are fewer nodes than an index asks for. -/
  | noNodeAt (role : Role) (index listed : Nat)
  /-- No node has a name. -/
  | noNodeNamed (role : Role) (name : String)
  deriving DecidableEq, Repr

/-- The known log levels. -/
def logLevels : List String := ["trace", "debug", "info", "warn", "error"]

/-- The wording of a refused setting. -/
def ConfigurationError.message : ConfigurationError → String
  | .backendScheme address => "backend must be an http(s) URL, got '" ++ address ++ "'"
  | .zeroTimeout => "timeout must be > 0"
  | .logLevel level =>
      "unknown log level '" ++ level ++ "', expected " ++ "/".intercalate logLevels
  | .noNodeAt role index listed =>
      role.suffix ++ " node " ++ toString index ++ " does not exist (" ++ toString listed ++
        " listed)"
  | .noNodeNamed role name => "no " ++ role.suffix ++ " node named '" ++ name ++ "'"

/-- Why the console gives up an action. -/
inductive ConsoleError
  /-- A request could not be carried out: what the client that makes the requests says of
  that, and of the causes below it. -/
  | transport (remark : String) (causes : List String)
  | contract (violation : ContractViolation)
  | configuration (error : ConfigurationError)
  | dial (error : DialError)
  /-- A rate was beyond the bounds of a histogram, as the histogram remarks. -/
  | statistics (remark : String)

/-- How the statistics word the refusal of a rate. -/
def recordingFailure (remark : String) : String := "Failed to record throughput: " ++ remark

/-- The wording of an error. -/
def ConsoleError.message : ConsoleError → String
  | .transport remark _ => "HTTP error: " ++ remark
  | .contract violation => "Upstream contract violation: " ++ violation.message
  | .configuration error => "Configuration error: " ++ error.message
  | .dial error => "Dial error: " ++ error.message
  | .statistics remark => "Statistics error: " ++ recordingFailure remark

/-- The wordings of the errors below an error. -/
def ConsoleError.causes : ConsoleError → List String
  | .transport remark causes => remark :: causes
  | .dial cause => [cause.message]
  | .statistics remark => [recordingFailure remark]
  | .contract _ | .configuration _ => []

/-- The wordings of an error and of the errors below it. -/
def ConsoleError.chain (error : ConsoleError) : List String := error.message :: error.causes

end NetworkConsole
