import NetworkConsole.Main
import NetworkConsole.Report.Encoding
import NetworkConsole.Proofs.Chart.Board
import NetworkConsole.Proofs.Console.Commands
import NetworkConsole.Proofs.Console.Dials
import NetworkConsole.Proofs.Dial.Interference
import NetworkConsole.Proofs.Report.Completeness
import NetworkConsole.Proofs.Report.Written
import NetworkConsole.Proofs.Number.Whole
import NetworkConsole.Proofs.Dial.Rate
import NetworkConsole.Proofs.Node.Selection
import NetworkConsole.Proofs.Throughput.Statistics
import NetworkConsole.Proofs.Console.Form
import NetworkConsole.Proofs.Command.Answer
import NetworkConsole.Proofs.Console.Exchange
import NetworkConsole.Proofs.Console.Repetition
import NetworkConsole.Proofs.CommandLine.Requests
import NetworkConsole.Proofs.Command.Hold
import NetworkConsole.Proofs.Console.Runs
import NetworkConsole.Proofs.Dial.Separation
import NetworkConsole.Proofs.Json.Grammar
import NetworkConsole.Proofs.Json.Tokens
import NetworkConsole.Proofs.Json.Structure
import NetworkConsole.Proofs.Node.Catalog
import NetworkConsole.Proofs.Console.Edits
import NetworkConsole.Proofs.Command.Timing
import NetworkConsole.Proofs.Console.Interval
import NetworkConsole.Proofs.Report.Amount
import NetworkConsole.Proofs.Throughput.Failure
import NetworkConsole.Proofs.Report.Literal
import NetworkConsole.Proofs.Report.LetterCase
import NetworkConsole.Proofs.Console.Loading
import NetworkConsole.Proofs.Throughput.Order
import NetworkConsole.Proofs.Console.Visibility
import NetworkConsole.Proofs.Dial.Parameters
import NetworkConsole.Proofs.Command.Delay
import NetworkConsole.Proofs.Chart.Capacity
