import NetworkConsole.Console.Session
import NetworkConsole.Display.Run

/-!
# Display of the results pane

The results pane is shown as it is, with the newest image below it.
-/

namespace NetworkConsole.Display

open Text (paint trimString)

/-- An image: its description and its markup, without the blanks around them. -/
def image (terminal : Terminal) (image : CameraImage) : String :=
  paint terminal.colours .bold "Image:" ++ " " ++ trimString image.text ++ "\n  " ++
    paint terminal.colours .dimmed (trimString image.html) ++ "\n"

/-- The results pane and the newest image, if any. -/
def output (terminal : Terminal) (session : Session) : String :=
  session.results ++ "\n" ++ (session.image.map (image terminal)).getD ""

end NetworkConsole.Display
