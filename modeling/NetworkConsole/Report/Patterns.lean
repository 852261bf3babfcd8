import NetworkConsole.Report.Metrics
import NetworkConsole.Text.Blank
import NetworkConsole.Text.Pattern

/-!
# Patterns of a report

A report is free text. A header line names the direction that the metric lines after
it belong to. Each metric has a keyword and a unit with a numeral between them. Errors
stand in quoted literals or after a colon. Letter case never matters.
-/

namespace NetworkConsole.Report

open Text (Pattern)

/-- Header of the results of a direction. -/
def header : Direction → Pattern
  | .clientToServer => .word "c->s results".toList
  | .serverToClient => .word "s->c results".toList

/-- The direction that a line selects. A line with both headers selects the direction to
the server. -/
def headerOf? (line : List Char) : Option Direction :=
  if (header .clientToServer).occursIn line then some .clientToServer
  else if (header .serverToClient).occursIn line then some .serverToClient
  else none

/-- The metrics in the order in which a line is tried for them. -/
def metricOrder : List Metric :=
  [.bandwidth, .throughput, .arrivalVariance, .arrivalMin, .arrivalAverage, .arrivalMax]

/-- The text before the numeral of a metric. -/
def keyword : Metric → String
  | .bandwidth => "attempted bandwidth:"
  | .throughput => "achieved bandwidth:"
  | .arrivalVariance => "interarrival time variance:"
  | .arrivalMin => "interarrival time min:"
  | .arrivalAverage => "average interarrival time:"
  | .arrivalMax => "interarrival time max:"

/-- The unit after the numeral of a metric. -/
def unit : Metric → String
  | .bandwidth | .throughput => "bps"
  | _ => "ms"

/-- Characters of which the numeral of a metric is made. -/
def isNumeralCharacter (character : Char) : Bool :=
  character.isDigit || character = '.' || character = '-'

/-- Keyword, numeral and unit of a metric, with blanks allowed around the numeral. -/
def metricPattern (metric : Metric) : Pattern :=
  .seq (.word (keyword metric).toList) <|
  .seq (.span Text.isBlank) <|
  .seq (.group (.span isNumeralCharacter)) <|
  .seq (.span Text.isBlank) (.word (unit metric).toList)

/-- The numeral that a line gives for a metric. -/
def numeralOf? (metric : Metric) (line : List Char) : Option (List Char) :=
  ((metricPattern metric).find? line).bind fun found => found.groups.head?

/-- The first metric whose pattern a line matches, with its numeral. -/
def readingOf? (line : List Char) : Option (Metric × List Char) :=
  metricOrder.findSome? fun metric => (numeralOf? metric line).map (metric, ·)

/-- The character that takes away the meaning of the one after it. -/
def escapeMark : Char := '\x5c'

/-- A literal between two equal quotes; a quote after an escape mark does not end it. -/
def literal (quote : Char) : Pattern :=
  .seq (.one (· = quote)) <|
  .seq
    (.many <| .either (.one fun character => character ≠ quote && character ≠ escapeMark) <|
      .seq (.one (· = escapeMark)) (.one (· ≠ '\n')))
    (.one (· = quote))

/-- A keyword, any number of equal signs and a literal in double or single quotes. -/
def assignment (keyword : String) : Pattern :=
  .seq (.word keyword.toList) <|
  .seq (.span (· = '=')) (.either (literal '\x22') (literal '\x27'))

/-- An assignment of an error text. -/
def errorLiteral : Pattern := assignment "err"

/-- An assignment of the text of a critical message. -/
def criticalLiteral : Pattern := assignment "crit msg"

/-- An error message that reaches to the end of its line. -/
def errorMessage : Pattern :=
  .seq (.word "error:".toList) <|
  .seq (.span Text.isBlank) (.group (.span (· ≠ '\n')))

/-- The error text that a line gives: a quoted error, or else a quoted critical message, or
else what follows `error:` without the blanks around it. -/
def errorOf? (line : List Char) : Option (List Char) :=
  match errorLiteral.find? line with
  | some found => some found.text
  | none =>
      match criticalLiteral.find? line with
      | some found => some found.text
      | none => (errorMessage.find? line).map fun found => Text.trim (found.groups.headD [])

end NetworkConsole.Report
