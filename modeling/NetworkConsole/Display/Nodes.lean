import NetworkConsole.Display.Run
import NetworkConsole.Node.Basic

/-!
# Display of nodes and notices

A node list has a title and a line for each node; a star marks the chosen one.
-/

namespace NetworkConsole.Display

open Text (alignLeft paint)

/-- The line of a node. -/
def nodeLine (terminal : Terminal) (selected : Option Node) (node : Node) : String :=
  "  " ++ paint terminal.colours .green (if selected = some node then "*" else " ") ++ " " ++
    alignLeft 12 node.name ++ " " ++ alignLeft 16 node.ia ++ " " ++ node.addr ++ ":" ++
    toString node.port.toNat ++ "\n"

/-- A list of nodes under a title. -/
def nodes (terminal : Terminal) (title : String) (list : List Node) (selected : Option Node) :
    String :=
  paint terminal.colours .bold title ++ "\n" ++ String.join (list.map (nodeLine terminal selected))

/-- A notice on a line of its own. -/
def notice (terminal : Terminal) (text : String) : String :=
  paint terminal.colours .boldYellow "!" ++ " " ++ paint terminal.colours .yellow text ++ "\n"

end NetworkConsole.Display
