/-!
# Lines of a text

A line feed ends a line, and a carriage return directly before it belongs to the
line end. Text after the last line feed is a line of its own unless it is empty.
-/

namespace NetworkConsole.Text

/-- Split a text at its line feeds; the piece after the last one comes last. -/
def splitFeeds : List Char → List (List Char)
  | [] => [[]]
  | '\n' :: rest => [] :: splitFeeds rest
  | character :: rest =>
      match splitFeeds rest with
      | [] => [[character]]
      | piece :: pieces => (character :: piece) :: pieces

/-- A line without the carriage return that ends it. -/
def dropReturn (line : List Char) : List Char :=
  match line.reverse with
  | '\r' :: reversed => reversed.reverse
  | _ => line

/-- The lines of a text without their ends. -/
def lines (text : List Char) : List (List Char) :=
  let pieces := splitFeeds text
  pieces.dropLast.map dropReturn ++ (pieces.getLast?.toList.filter fun last => last ≠ [])

end NetworkConsole.Text
