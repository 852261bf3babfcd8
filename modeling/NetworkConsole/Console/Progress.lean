import NetworkConsole.Command.Tabs

/-!
# Progress of a command

While a command is pending, its line grows by a dot at equal intervals.
-/

namespace NetworkConsole

namespace Progress

/-- Milliseconds between two dots. -/
def dotInterval : Nat := 500

/-- The line of a command that has just begun. -/
def heading (app : App) : String := "Executing " ++ app.name ++ " client"

/-- The line of a command after a number of dots. -/
def line (app : App) (dots : Nat) : String :=
  heading app ++ String.ofList (List.replicate dots '.')

end Progress

end NetworkConsole
