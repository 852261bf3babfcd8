import NetworkConsole.Json.Quote
import NetworkConsole.Number.Notation
import NetworkConsole.Report.Metrics

/-!
# Reports as JSON

The JSON text of a report has one object for each direction. What is not known is left
out, and the error that belongs to no direction is not written.
-/

namespace NetworkConsole.Report

/-- The known members of one direction. -/
def members (metrics : Metrics) : List (String × String) :=
  [("bandwidth", metrics.bandwidth.map Number.json),
   ("throughput", metrics.throughput.map Number.json),
   ("arrival_var", metrics.arrivalVariance.map Number.json),
   ("arrival_min", metrics.arrivalMin.map Number.json),
   ("arrival_avg", metrics.arrivalAverage.map Number.json),
   ("arrival_max", metrics.arrivalMax.map Number.json),
   ("error", metrics.error.map Json.quote)].filterMap fun entry => entry.2.map (entry.1, ·)

/-- The JSON text of a report. -/
def json (report : Report) : String :=
  Json.objectText <| Direction.all.map fun direction =>
    (direction.tag, Json.objectText (members (report.get direction)))

end NetworkConsole.Report
