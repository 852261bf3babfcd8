/-!
# Text columns

Padding with blanks to a width counted in characters. A longer text is left whole.
-/

namespace NetworkConsole.Text

/-- Pad on the right, so that the text stands at the left of its column. -/
def alignLeft (width : Nat) (text : String) : String :=
  text ++ String.ofList (List.replicate (width - text.length) ' ')

/-- Pad on the left, so that the text stands at the right of its column. -/
def alignRight (width : Nat) (text : String) : String :=
  String.ofList (List.replicate (width - text.length) ' ') ++ text

end NetworkConsole.Text
