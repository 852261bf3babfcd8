import NetworkConsole.Dial.Linkage
import NetworkConsole.Report.Patterns
import NetworkConsole.Text.Lines

/-!
# Scanning a report

One pass over the lines of a report. A line first selects the current direction, then
gives that direction at most one metric, then may give an error text. The last error
text wins; where no line gives one, the first line that is not blank stands for it.
-/

namespace NetworkConsole.Report

/-- What is known after some lines of a report. -/
structure Scan where
  direction : Option Direction
  metrics : PerDirection Metrics
  errorText : Option (List Char)
  firstLine : Option (List Char)

namespace Scan

/-- The state before the first line. -/
def initial : Scan where
  direction := none
  metrics := .both .empty
  errorText := none
  firstLine := none

/-- Take a metric reading into the current direction. A numeral that does not denote a
number is passed over. -/
def takeReading (scan : Scan) (line : List Char) : Scan :=
  match scan.direction, readingOf? line with
  | some direction, some (metric, numeral) =>
      match Number.readFloat? numeral with
      | some value => { scan with metrics := scan.metrics.modify direction (·.set metric value) }
      | none => scan
  | _, _ => scan

/-- Take an error text, or the first line that is not blank. -/
def takeError (scan : Scan) (line : List Char) : Scan :=
  match errorOf? line with
  | some text => { scan with errorText := some text }
  | none =>
      if scan.firstLine.isNone && !Text.allBlank line then
        { scan with firstLine := some (Text.trim line) }
      else scan

/-- Take one line. -/
def step (scan : Scan) (line : List Char) : Scan :=
  let selected := { scan with direction := (headerOf? line).or scan.direction }
  (selected.takeReading line).takeError line

/-- The report that the lines taken so far make. -/
def report (scan : Scan) : Report where
  metrics := scan.metrics
  error := (scan.errorText.or scan.firstLine).map String.ofList

end Scan

/-- Read a report from the output of a test client. -/
def scan (text : String) : Report :=
  ((Text.lines text.toList).foldl Scan.step .initial).report

/-- Read a report and mark its incomplete directions as failed at the rates that the dials
aim at. -/
def ofOutput (text : String) (linkage : Linkage) : Report :=
  (scan text).backfill fun direction => (linkage.panel direction).targetBps

end NetworkConsole.Report
