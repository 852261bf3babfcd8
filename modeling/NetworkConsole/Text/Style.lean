/-!
# Terminal styles

A styled text stands between the escape sequence of its style and the sequence that
resets the terminal. A reset inside the text is followed by the style again. With
colours off a text is written as it is.
-/

namespace NetworkConsole.Text

/-- The styles in use; a colour is written after `bold` and `dimmed`. -/
inductive Style
  | bold
  | dimmed
  | red
  | green
  | yellow
  | cyan
  | boldYellow
  deriving DecidableEq, Repr

/-- The parameters of the style in an escape sequence. -/
def Style.code : Style → String
  | .bold => "1"
  | .dimmed => "2"
  | .red => "31"
  | .green => "32"
  | .yellow => "33"
  | .cyan => "36"
  | .boldYellow => "1;33"

/-- An escape sequence that sets graphic parameters. -/
def escape (code : String) : String := "\x1b[" ++ code ++ "m"

/-- The characters of the reset sequence. -/
def reset : List Char := ['\x1b', '[', '0', 'm']

/-- Write `style` again after each reset in the text. -/
def restoreAfterResets (style : List Char) : List Char → List Char
  | '\x1b' :: '[' :: '0' :: 'm' :: rest => reset ++ style ++ restoreAfterResets style rest
  | character :: rest => character :: restoreAfterResets style rest
  | [] => []

/-- Write a text in a style. -/
def paint (colours : Bool) (style : Style) (text : String) : String :=
  if colours then
    let opening := (escape style.code).toList
    String.ofList (opening ++ restoreAfterResets opening text.toList ++ reset)
  else text

end NetworkConsole.Text
