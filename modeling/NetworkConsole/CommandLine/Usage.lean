import NetworkConsole.CommandLine.Error

/-!
# Usage

The help text of the console and the way in which a refused command line ends.
-/

namespace NetworkConsole.CommandLine

/-- The help text. -/
def usageText : String :=
  "\n".intercalate
    ["Console for bandwidth, camera and sensor tests",
     "",
     "Usage: console [OPTIONS] <COMMAND>",
     "",
     "Commands:",
     "  bwtest  Run the bandwidth test once or continuously",
     "  camera  Retrieve an image with the camera app",
     "  sensor  Retrieve sensor readings",
     "  nodes   List the client and server nodes",
     "  help    Print this message",
     "",
     "Options:",
     "      --backend <BACKEND>        Base URL of the test backend",
     "      --timeout-ms <TIMEOUT_MS>  Backend request timeout in milliseconds",
     "      --client <CLIENT>          Name of the client node to use",
     "      --server <SERVER>          Name of the server node to use",
     "      --addl-opt <ADDL_OPT>      Additional options for the test client",
     "      --utc                      Show chart times in UTC",
     "      --quiet                    Print results only",
     "      --log-level <LOG_LEVEL>    Log level (trace, debug, info, warn, error)",
     "      --log-format <LOG_FORMAT>  Log format (text or json)",
     "  -h, --help                     Print help",
     "",
     "Options of bwtest:",
     "      --cs <CS>                  Client to server test as seconds,size,packets",
     "      --sc <SC>                  Server to client test as seconds,size,packets",
     "      --lock-cs <LOCK_CS>        Dial kept fixed for client to server",
     "      --lock-sc <LOCK_SC>        Dial kept fixed for server to client",
     "      --bw-cs <BW_CS>            Client to server bandwidth in Mbps",
     "      --bw-sc <BW_SC>            Server to client bandwidth in Mbps",
     "      --continuous               Repeat the test until --runs is reached",
     "      --runs <RUNS>              Stop continuous testing after this many runs",
     "      --interval <INTERVAL>      Seconds between continuous runs",
     ""]

/-- What is printed when a command line is refused. -/
def UsageError.display : UsageError → String
  | .help | .nothingGiven => usageText
  | error => error.report

/-- The exit code of a refused command line; help that was asked for is no failure. -/
def UsageError.exitCode : UsageError → UInt32
  | .help => 0
  | _ => 2

end NetworkConsole.CommandLine
